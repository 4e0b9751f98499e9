/-!
# Rates of measured work

Arithmetic in 64-bit floating point, one rounding per operation.

* `Rate.mebibytes`  mebibytes moved per second;
* `Rate.elements`   elements worked on per second.

Work that took no measurable time has the rate zero.
-/

namespace Offload.Trace.Rate

/-- the nearest number; the natural is less than `2 ^ 64` -/
def ofNat (n : Nat) : Float := (UInt64.ofNat n).toFloat

def million : Float := ofNat 1000000

def kibi : Float := ofNat 1024

def elements (count us : Nat) : Float :=
  if 0 < us then ofNat count / ofNat us * million else 0

def mebibytes (bytes us : Nat) : Float :=
  if 0 < us then ofNat bytes / ofNat us * million / (kibi * kibi) else 0

end Offload.Trace.Rate
