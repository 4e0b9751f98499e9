import Offload.Json.Fault

/-!
# Reading data off tokens

A reader takes the tokens it needs from the front of a list, or says what is wrong there.

* `Reader.text`, `size`, `null`  single values;
* `Reader.list`       the items of a sequence;
* `Record`            how data with named fields is written: as an object with its fields in any
                      order, or as a sequence in the order of declaration.  Fields that are not
                      required may be left out, in a sequence only at its end;
* `Reader.whole`      a text that holds one value and nothing else.

Offences are found in reading order.  An unknown or repeated name is one as soon as it is read, a
missing field only where the object closes.
-/

namespace Offload.Json

/-- takes a value off the front of some tokens -/
abbrev Reader (α : Type) : Type := List Token → Except Fault (α × List Token)

namespace Reader

variable {α β : Type}

/-- a token that starts a value of another kind than the expected one -/
def wrongHead (expected : String) : List Token → Fault
  | .null :: _ => .wrongType .null expected
  | .boolean b :: _ => .wrongType (.boolean b) expected
  | .number n :: _ => .wrongType (.number n) expected
  | .text s :: _ => .wrongType (.text s) expected
  | .openBracket :: _ => .wrongType .sequence expected
  | .openBrace :: _ => .wrongType .map expected
  | _ => .malformed

def text (expected : String) : Reader String
  | .text s :: rest => .ok (s, rest)
  | ts => .error (wrongHead expected ts)

/-- A size is a natural; a negative integer has the right type but a wrong value. -/
def size (expected : String) : Reader Nat
  | .number (.natural n) :: rest => .ok (n, rest)
  | .number (.negative n) :: _ => .error (.wrongValue (.number (.negative n)) expected)
  | ts => .error (wrongHead expected ts)

def null (expected : String) : Reader Unit
  | .null :: rest => .ok ((), rest)
  | ts => .error (wrongHead expected ts)

/-- `null` stands for a missing value -/
def optional (item : Reader α) : Reader (Option α)
  | .null :: rest => .ok (none, rest)
  | ts =>
    match item ts with
    | .ok (a, rest) => .ok (some a, rest)
    | .error e => .error e

/-- at least one item, then the end of the sequence -/
def items (item : Reader α) : Nat → Reader (List α)
  | 0, _ => .error .malformed
  | fuel + 1, ts =>
    match item ts with
    | .error e => .error e
    | .ok (a, .closeBracket :: rest) => .ok ([a], rest)
    | .ok (a, .comma :: rest) =>
      match items item fuel rest with
      | .error e => .error e
      | .ok (as, rest) => .ok (a :: as, rest)
    | .ok _ => .error .malformed

def list (expected : String) (item : Reader α) : Reader (List α)
  | .openBracket :: .closeBracket :: rest => .ok ([], rest)
  | .openBracket :: rest => items item rest.length rest
  | ts => .error (wrongHead expected ts)

/-- nothing may follow the value -/
def whole (item : Reader α) (ts : List Token) : Except Fault α :=
  match item ts with
  | .ok (a, []) => .ok a
  | .ok _ => .error .malformed
  | .error e => .error e

end Reader

/-! ## records -/

/-- a field of data that is collected in a draft -/
structure Record.Field (δ : Type) where
  name : String
  required : Bool
  /-- whether the draft holds the field -/
  present : δ → Bool
  /-- reads the field into the draft -/
  read : δ → Reader δ

/-- how data with named fields is written -/
structure Record (δ α : Type) where
  title : String
  fields : List (Record.Field δ)
  blank : δ
  /-- the data, once all required fields are there -/
  finish : δ → Option α

namespace Record

variable {δ α : Type} (r : Record δ α)

/-- the data of a draft at the end of an object -/
def close (d : δ) : Except Fault α :=
  match r.fields.find? fun f => f.required && !f.present d with
  | some f => .error (.missingField f.name)
  | none =>
    match r.finish d with
    | some a => .ok a
    | none => .error .malformed

/-- the fields of an object from a name on -/
def named : Nat → δ → Reader δ
  | 0, _, _ => .error .malformed
  | fuel + 1, d, .text name :: ts =>
    match r.fields.find? (·.name = name) with
    | none => .error (.unknownField name (r.fields.map (·.name)))
    | some f =>
      if f.present d then .error (.duplicateField f.name)
      else
        match ts with
        | .colon :: ts =>
          match f.read d ts with
          | .error e => .error e
          | .ok (d, .closeBrace :: rest) => .ok (d, rest)
          | .ok (d, .comma :: rest) => named fuel d rest
          | .ok _ => .error .malformed
        | _ => .error .malformed
  | _ + 1, _, _ => .error .malformed

/-- what a sequence of that length lacks -/
def lengthWords : String :=
  let n := r.fields.length
  s!"{r.title} with {n} " ++ if n = 1 then "element" else "elements"

/-- The fields of a sequence from number `i` on.  After the end of the sequence only fields that are
not required may be left. -/
def positional : List (Record.Field δ) → Nat → δ → Reader δ
  | [], _, d, .closeBracket :: rest => .ok (d, rest)
  | [], _, _, _ => .error .malformed
  | f :: fs, i, d, .closeBracket :: rest =>
    if f.required then .error (.tooShort i r.lengthWords)
    else positional fs (i + 1) d (.closeBracket :: rest)
  | f :: fs, 0, d, ts =>
    match f.read d ts with
    | .error e => .error e
    | .ok (d, rest) => positional fs 1 d rest
  | f :: fs, i + 1, d, .comma :: ts =>
    match f.read d ts with
    | .error e => .error e
    | .ok (d, rest) => positional fs (i + 2) d rest
  | _ :: _, _ + 1, _, _ => .error .malformed

/-- the draft of an object or sequence -/
def draft : Reader δ
  | .openBrace :: .closeBrace :: rest => .ok (r.blank, rest)
  | .openBrace :: rest => r.named rest.length r.blank rest
  | .openBracket :: rest => r.positional r.fields 0 r.blank rest
  | ts => .error (Reader.wrongHead r.title ts)

def read : Reader α := fun ts =>
  match r.draft ts with
  | .error e => .error e
  | .ok (d, rest) =>
    match r.close d with
    | .error e => .error e
    | .ok a => .ok (a, rest)

end Record

end Offload.Json
