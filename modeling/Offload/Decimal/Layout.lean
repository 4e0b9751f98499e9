import Offload.Decimal.Shortest
import Offload.Text.Numeral

/-!
# How floating point numbers are laid out

* `Layout`        which numbers are written positionally; all others get an exponent, always with
                  its sign;
* `Layout.write`  the shortest decimal in that layout, with at least one digit on either side of
                  the point in positional form.
-/

namespace Offload.Decimal

structure Layout where
  /-- the least exponent of the leading digit in positional form -/
  least : Int
  /-- the greatest exponent of the leading digit in positional form -/
  most : Int
  deriving DecidableEq, Repr

namespace Layout

/-- digits with a point in front of the last `p` of them, where `p` is positive -/
def pointed (ds : List Char) (p : Nat) : List Char :=
  let padded := List.replicate (p + 1 - ds.length) '0' ++ ds
  padded.take (padded.length - p) ++ '.' :: padded.drop (padded.length - p)

/-- without an exponent -/
def positional (d : Scientific) : List Char :=
  match d.exponent with
  | .ofNat k => Text.Numeral.digits d.digits ++ List.replicate k '0' ++ ['.', '0']
  | .negSucc k => pointed (Text.Numeral.digits d.digits) (k + 1)

/-- with one digit before the point and an exponent -/
def exponential (d : Scientific) : List Char :=
  let ds := Text.Numeral.digits d.digits
  let e := d.exponent + (ds.length - 1 : Nat)
  let mantissa := match ds with
    | [c] => [c]
    | c :: cs => c :: '.' :: cs
    | [] => []
  mantissa ++ ['e', if e < 0 then '-' else '+'] ++ Text.Numeral.digits e.natAbs

def magnitude (l : Layout) (d : Scientific) : List Char :=
  let e := d.exponent + ((Text.Numeral.digits d.digits).length - 1 : Nat)
  if l.least ≤ e ∧ e ≤ l.most then positional d else exponential d

/-- a finite number; zero keeps its sign -/
def write (l : Layout) (x : Float) : List Char :=
  let bits := x.toBits.toNat
  let sign := if Nat.pow 2 63 ≤ bits then ['-'] else []
  if bits % Nat.pow 2 63 = 0 then sign ++ ['0', '.', '0']
  else sign ++ l.magnitude (Shortest.decimal (Binary.ofBits bits))

end Layout

end Offload.Decimal
