import Offload.Element
import Offload.Json.Value

/-!
# Element types in JSON

An element type is written as its name; an object with the name as its only member, with the value
`null`, means the same.

* `Element.token`    how a type is written;
* `Element.read`     a type off the tokens of a text;
* `Element.ofValue`  a type from a value that was read before.  Here an object with several members
                     is seen as a whole, so it is refused before its first name is looked at.
-/

namespace Offload.Element

open Json

def names : List String := all.map name

def token (e : Element) : Token := .text e.name

/-- the type of that name -/
def variant (s : String) : Except Fault Element :=
  match ofName? s with
  | some e => .ok e
  | none => .error (.unknownVariant s names)

theorem variant_name (e : Element) : variant e.name = .ok e := by
  rw [variant, ofName?_name]

/-- the member of an object behind its name -/
def readMember (e : Element) : Reader Element
  | .colon :: ts =>
    match Reader.null "unit" ts with
    | .error err => .error err
    | .ok (_, .closeBrace :: rest) => .ok (e, rest)
    | .ok _ => .error .malformed
  | _ => .error .malformed

def read : Reader Element
  | .text s :: rest =>
    match variant s with
    | .error err => .error err
    | .ok e => .ok (e, rest)
  | .openBrace :: .text s :: rest =>
    match variant s with
    | .error err => .error err
    | .ok e => readMember e rest
  | _ => .error .malformed

def ofValue : Value → Except Fault Element
  | .text s => variant s
  | .object [(s, v)] =>
    match variant s, v with
    | .error err, _ => .error err
    | .ok e, .null => .ok e
    | .ok _, v => .error (.wrongType v.found "unit")
  | .object _ => .error (.wrongValue .map "map with a single key")
  | v => .error (.wrongType v.found "string or map")

end Offload.Element
