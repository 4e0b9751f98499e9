/-!
# Shortest decimals

The decimal with the fewest digits that reads back as a given 64-bit floating point number.

* `Binary`           a positive number as `significand * 2 ^ exponent`, with the width of the gap
                     below it;
* `Binary.ofBits`    the number of a bit pattern;
* `Binary.contains`  whether a decimal lies in the interval of reals that round to the number.  Its
                     ends belong to it exactly when the significand is even;
* `Shortest.decimal` tries one digit, two digits, and so on.  On each grid it looks at the number's
                     two neighbours; of two that lie in the interval the nearer is taken, and the
                     even one if both are equally near.

All arithmetic is on naturals and exact.
-/

namespace Offload.Decimal

/-- the positive number `significand * 2 ^ exponent` -/
structure Binary where
  significand : Nat
  exponent : Int
  /-- the number below is only half as far away as the one above -/
  tight : Bool
  deriving DecidableEq, Repr

namespace Binary

/-- the magnitude of a finite pattern that is not zero -/
def ofBits (bits : Nat) : Binary :=
  let fraction : Nat := bits % Nat.pow 2 52
  let field : Nat := bits / Nat.pow 2 52 % Nat.pow 2 11
  if field = 0 then ⟨fraction, -1074, false⟩
  else ⟨Nat.pow 2 52 + fraction, (field : Int) - 1075, fraction = 0 && field > 1⟩

/-- `n` quarters of the last place, over `denominator` -/
def quarters (x : Binary) (n : Nat) : Nat := n * Nat.pow 2 (x.exponent - 2).toNat

def denominator (x : Binary) : Nat := Nat.pow 2 (2 - x.exponent).toNat

/-- the number itself, over `denominator` -/
def centre (x : Binary) : Nat := x.quarters (4 * x.significand)

/-- the end of the interval towards zero, over `denominator` -/
def lower (x : Binary) : Nat := x.quarters (4 * x.significand - if x.tight then 1 else 2)

/-- the other end, over `denominator` -/
def upper (x : Binary) : Nat := x.quarters (4 * x.significand + 2)

end Binary

/-- the decimal `digits * 10 ^ exponent` -/
structure Scientific where
  digits : Nat
  exponent : Int
  deriving DecidableEq, Repr

namespace Shortest

/-- `n * 10 ^ p` and `d` brought over one denominator, as a pair of naturals to compare -/
def align (d : Nat) (n : Nat) (p : Int) : Nat × Nat := (n * Nat.pow 10 p.toNat * d, Nat.pow 10 (-p).toNat)

/-- whether the decimal rounds to the number -/
def contains (x : Binary) (n : Nat) (p : Int) : Bool :=
  let (c, s) := align x.denominator n p
  let lo := x.lower * s
  let hi := x.upper * s
  if x.significand % 2 = 0 then lo ≤ c && c ≤ hi else lo < c && c < hi

/-- the distance of the decimal to the number, in units that depend only on `p` -/
def distance (x : Binary) (n : Nat) (p : Int) : Nat :=
  let (c, s) := align x.denominator n p
  (c - x.centre * s) + (x.centre * s - c)

/-- the greatest `n` with `n * 10 ^ p` at most the number -/
def floor (x : Binary) (p : Int) : Nat :=
  x.centre * Nat.pow 10 (-p).toNat / (x.denominator * Nat.pow 10 p.toNat)

/-- the better of the two neighbours on the grid of step `10 ^ p`, if one rounds to the number -/
def onGrid? (x : Binary) (p : Int) : Option Nat :=
  let a := floor x p
  match contains x a p, contains x (a + 1) p with
  | true, true =>
    let da := distance x a p
    let db := distance x (a + 1) p
    if da < db || (da = db && a % 2 = 0) then some a else some (a + 1)
  | true, false => some a
  | false, true => some (a + 1)
  | false, false => none

/-- the exponent of the leading digit, searched from `e` downwards -/
def leading (x : Binary) : Nat → Int → Int
  | 0, e => e
  | fuel + 1, e => if 0 < floor x e then e else leading x fuel (e - 1)

/-- grids with one more digit each, starting from step `10 ^ p` -/
def search (x : Binary) : Nat → Int → Scientific
  | 0, p => ⟨floor x p, p⟩
  | fuel + 1, p =>
    match onGrid? x p with
    | some n => ⟨n, p⟩
    | none => search x fuel (p - 1)

/-- drops zeros at the end of the digits -/
def strip : Nat → Scientific → Scientific
  | 0, d => d
  | fuel + 1, d =>
    if d.digits % 10 = 0 then strip fuel ⟨d.digits / 10, d.exponent + 1⟩ else d

/-- Seventeen digits always suffice, and no finite number has a digit above `10 ^ 308` or none at or
above `10 ^ -324`. -/
def decimal (x : Binary) : Scientific := strip 20 (search x 17 (leading x 633 308))

end Shortest

end Offload.Decimal
