import Offload.Json.Reader

/-!
# JSON values

* `Value`         any JSON value.  The members of an object keep their order; of members with the
                  same name the last one counts;
* `Value.parse`   the value of a text; `none` if it is no JSON or nested too deeply;
* `Value.render`  the text of a value without spaces;
* `required`, `defaulted`, `optional`  a member of an object, read by a function.
-/

namespace Offload.Json

inductive Value where
  | null
  | boolean (b : Bool)
  | number (n : Number)
  | text (s : String)
  | array (items : List Value)
  | object (members : List (String × Value))
  deriving Inhabited

namespace Value

/-- the greatest depth of nesting -/
def depthLimit : Nat := 127

/-- the first member of that name replaced, or a new one at the end -/
def putMember (name : String) (v : Value) : List (String × Value) → List (String × Value)
  | [] => [(name, v)]
  | m :: ms => if m.1 = name then (name, v) :: ms else m :: putMember name v ms

/-- members from a name on, put into those that came before -/
def members (item : Reader Value) :
    Nat → List (String × Value) → Reader (List (String × Value))
  | 0, _, _ => .error .malformed
  | fuel + 1, ms, .text name :: .colon :: ts =>
    match item ts with
    | .error e => .error e
    | .ok (v, .closeBrace :: rest) => .ok (putMember name v ms, rest)
    | .ok (v, .comma :: rest) => members item fuel (putMember name v ms) rest
    | .ok _ => .error .malformed
  | _ + 1, _, _ => .error .malformed

/-- a value that is nested at most so deeply -/
def readWithin : Nat → Reader Value
  | _, .null :: rest => .ok (null, rest)
  | _, .boolean b :: rest => .ok (boolean b, rest)
  | _, .number n :: rest => .ok (number n, rest)
  | _, .text s :: rest => .ok (text s, rest)
  | depth + 1, .openBracket :: rest =>
    match Reader.list "a sequence" (readWithin depth) (.openBracket :: rest) with
    | .error e => .error e
    | .ok (vs, rest) => .ok (array vs, rest)
  | _ + 1, .openBrace :: .closeBrace :: rest => .ok (object [], rest)
  | depth + 1, .openBrace :: rest =>
    match members (readWithin depth) rest.length [] rest with
    | .error e => .error e
    | .ok (ms, rest) => .ok (object ms, rest)
  | _, _ => .error .malformed

def parse (s : String) : Option Value :=
  (Reader.whole (readWithin depthLimit) (Token.scan s.toList)).toOption

mutual

/-- the tokens of a value -/
def tokens : Value → List Token
  | null => [.null]
  | boolean b => [.boolean b]
  | number n => [.number n]
  | text s => [.text s]
  | array [] => [.openBracket, .closeBracket]
  | array (v :: vs) => .openBracket :: v.tokens ++ itemTokens vs
  | object [] => [.openBrace, .closeBrace]
  | object ((name, v) :: ms) =>
    .openBrace :: .text name :: .colon :: v.tokens ++ memberTokens ms

/-- the items after the first -/
def itemTokens : List Value → List Token
  | [] => [.closeBracket]
  | v :: vs => .comma :: v.tokens ++ itemTokens vs

/-- the members after the first -/
def memberTokens : List (String × Value) → List Token
  | [] => [.closeBrace]
  | (name, v) :: ms => .comma :: .text name :: .colon :: v.tokens ++ memberTokens ms

end

def render (v : Value) : String := Token.writeAll v.tokens

/-- the kind of a value, as messages call it -/
def found : Value → Found
  | null => .null
  | boolean b => .boolean b
  | number n => .number n
  | text s => .text s
  | array _ => .sequence
  | object _ => .map

/-! ## taking values apart -/

def natural? : Value → Option Nat
  | number (.natural n) => some n
  | _ => none

def text? : Value → Option String
  | text s => some s
  | _ => none

def boolean? : Value → Option Bool
  | boolean b => some b
  | _ => none

def items? : Value → Option (List Value)
  | array vs => some vs
  | _ => none

def members? : Value → Option (List (String × Value))
  | object ms => some ms
  | _ => none

/-- a list of values of one kind -/
def list? {α : Type} (f : Value → Option α) (v : Value) : Option (List α) :=
  v.items? >>= fun vs => vs.mapM f

/-- a member of an object -/
def member? (v : Value) (name : String) : Option Value :=
  match v with
  | object ms => ms.lookup name
  | _ => none

/-- a member of an object, where `null` stands for none -/
def given? (v : Value) (name : String) : Option Value :=
  match v.member? name with
  | some null => none
  | w => w

/-- a member that has to be there -/
def required {α : Type} (v : Value) (name : String) (f : Value → Option α) : Option α :=
  v.given? name >>= f

/-- a member with a default -/
def defaulted {α : Type} (v : Value) (name : String) (d : α) (f : Value → Option α) : Option α :=
  match v.given? name with
  | none => some d
  | some w => f w

/-- a member that may be left out -/
def optional {α : Type} (v : Value) (name : String) (f : Value → Option α) : Option (Option α) :=
  v.defaulted name none fun w => (f w).map some

end Value

end Offload.Json
