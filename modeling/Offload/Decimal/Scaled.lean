/-!
# Scaled numbers

The floating-point value of a natural product a power of ten, in two roundings: the natural first, the
product or quotient second.

* `Scaled.power`  a power of ten up to `10 ^ 308`, correctly rounded;
* `Scaled.value`  `significand * 10 ^ exponent`; `none` where the product leaves the finite range.

A quotient by a power above `10 ^ 308` is taken in steps of `10 ^ 308`, until the power is small
enough or nothing is left.
-/

namespace Offload.Decimal.Scaled

/-- the greatest power of ten that is a finite number -/
def top : Nat := 308

def power (k : Nat) : Float := Float.ofScientific 1 false k

/-- The natural is less than `2 ^ 64`. -/
def significand (n : Nat) : Float := (UInt64.ofNat n).toFloat

def product (x : Float) (k : Nat) : Option Float :=
  if k ≤ top then
    let y := x * power k
    if y.isInf then none else some y
  else if x == 0 then some x
  else none

def quotient (x : Float) (k : Nat) : Float :=
  if k ≤ top then x / power k
  else if x == 0 then x
  else quotient (x / power top) (k - top)
  termination_by k
  decreasing_by simp_all [top]; omega

def value (n : Nat) (exponent : Int) : Option Float :=
  match exponent with
  | .ofNat k => product (significand n) k
  | .negSucc k => some (quotient (significand n) (k + 1))

end Offload.Decimal.Scaled
