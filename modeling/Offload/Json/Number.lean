import Offload.Decimal.Layout
import Offload.Decimal.Scaled
import Offload.Size

/-!
# JSON numbers

* `Number`        a natural below `2 ^ 64`, a negative integer down to `-2 ^ 63`, or a floating
                  point number: all that is written with a fraction or an exponent, integers out of
                  those ranges, and minus zero;
* `Number.read?`  the number at the start of a text and what follows it, by the grammar of JSON;
* `Number.write`  the characters of a number.

Of the digits of a long number only as many count as fit a 64-bit significand.  Those of the whole
part that are left out still count as places; those of the fraction do not.
-/

namespace Offload.Json

inductive Number where
  /-- below `2 ^ 64` -/
  | natural (n : Nat)
  /-- the number `-n`, for `0 < n ≤ 2 ^ 63` -/
  | negative (n : Nat)
  /-- finite -/
  | real (x : Float)
  deriving Inhabited

namespace Number

/-! ## the parts of a numeral -/

structure Parts where
  minus : Bool
  whole : List Nat
  fraction : Option (List Nat)
  /-- whether the exponent is negative, and its digits -/
  exponent : Option (Bool × List Nat)

def digits? (cs : List Char) : List Nat × List Char :=
  match cs with
  | [] => ([], [])
  | c :: cs =>
    match Text.Numeral.digit? c with
    | some d => let (ds, rest) := digits? cs; (d :: ds, rest)
    | none => ([], c :: cs)

/-- No zero stands in front of another digit. -/
def whole? (cs : List Char) : Option (List Nat × List Char) :=
  match digits? cs with
  | ([], _) | (0 :: _ :: _, _) => none
  | (ds, rest) => some (ds, rest)

def fraction? : List Char → Option (Option (List Nat) × List Char)
  | '.' :: cs =>
    match digits? cs with
    | ([], _) => none
    | (ds, rest) => some (some ds, rest)
  | cs => some (none, cs)

def sign : List Char → Bool × List Char
  | '-' :: cs => (true, cs)
  | '+' :: cs => (false, cs)
  | cs => (false, cs)

def exponent? : List Char → Option (Option (Bool × List Nat) × List Char)
  | [] => some (none, [])
  | c :: cs =>
    if c = 'e' ∨ c = 'E' then
      let (minus, cs) := sign cs
      match digits? cs with
      | ([], _) => none
      | (ds, rest) => some (some (minus, ds), rest)
    else some (none, c :: cs)

def minus : List Char → Bool × List Char
  | '-' :: cs => (true, cs)
  | cs => (false, cs)

def parts? (cs : List Char) : Option (Parts × List Char) := do
  let (neg, cs) := minus cs
  let (ws, cs) ← whole? cs
  let (fs, cs) ← fraction? cs
  let (es, cs) ← exponent? cs
  some (⟨neg, ws, fs, es⟩, cs)

/-! ## the value of a numeral -/

/-- digits of the whole part put behind a significand, and the places left over -/
def takeWhole : Nat → List Nat → Nat × Nat
  | s, [] => (s, 0)
  | s, d :: ds => if 10 * s + d < Size.limit then takeWhole (10 * s + d) ds else (s, ds.length + 1)

/-- digits of the fraction put behind a significand, and how many of them -/
def takeFraction : Nat → List Nat → Nat × Nat
  | s, [] => (s, 0)
  | s, d :: ds =>
    if 10 * s + d < Size.limit then
      let (s, n) := takeFraction (10 * s + d) ds
      (s, n + 1)
    else (s, 0)

def ofDigits (ds : List Nat) : Nat := ds.foldl (fun n d => 10 * n + d) 0

/-- the first exponent that is not looked at any more -/
def exponentLimit : Nat := Nat.pow 2 31

/-- `significand * 10 ^ (scale ± exponent)` -/
def magnitude? (significand : Nat) (scale : Int) : Option (Bool × List Nat) → Option Float
  | none => Decimal.Scaled.value significand scale
  | some (neg, ds) =>
    let e := ofDigits ds
    if e < exponentLimit then Decimal.Scaled.value significand (if neg then scale - e else scale + e)
    else if significand = 0 ∨ neg then some 0
    else none

def signed (neg : Bool) (x : Float) : Float := if neg then -x else x

/-- an integer without fraction and exponent -/
def ofInteger (neg : Bool) (n : Nat) : Number :=
  if !neg then natural n
  else if 0 < n ∧ n ≤ Nat.pow 2 63 then negative n
  else real (-(Decimal.Scaled.significand n))

/-- A number too great for a floating point number has no value. -/
def Parts.value? (p : Parts) : Option Number :=
  match takeWhole 0 p.whole, p.fraction, p.exponent with
  | (n, 0), none, none => some (ofInteger p.minus n)
  | (n, left), fs, es =>
    let (n, places) := takeFraction n (fs.getD [])
    (magnitude? n ((left : Int) - places) es).map fun x => real (signed p.minus x)

def read? (cs : List Char) : Option (Number × List Char) := do
  let (p, rest) ← parts? cs
  let n ← p.value?
  some (n, rest)

/-! ## writing -/

/-- from `10 ^ -5` on and below `10 ^ 16` without an exponent -/
def layout : Decimal.Layout := ⟨-5, 15⟩

def write : Number → List Char
  | natural n => Text.Numeral.digits n
  | negative n => '-' :: Text.Numeral.digits n
  | real x => layout.write x

end Number

end Offload.Json
