import Offload.Error

/-!
# Parts of a slice

A slice is a vector here, so that what is written to it is written in its place.

* `Slice.vector`    the elements of a list as a vector;
* `Part`            what lies between two places of a slice of some length;
* `Part.between`    the part is looked for, and crashes where it does not end inside the slice;
* `Part.get`        one element of a part, by its place in the part.
-/

namespace Offload

def Slice.vector {α : Type} (xs : List α) : Vector α xs.length := ⟨xs.toArray, List.size_toArray⟩

/-- what lies between two places of a slice of `n` elements -/
structure Part (n : Nat) where
  start : Nat
  stop : Nat
  stop_le : stop ≤ n
  deriving DecidableEq, Repr

namespace Part

variable {n : Nat}

def length (p : Part n) : Nat := p.stop - p.start

/-- the slice itself -/
def whole (n : Nat) : Part n := ⟨0, n, Nat.le_refl n⟩

/-- No chunk ends before it starts, so only its end can be outside. -/
def between (n start stop : Nat) : Except Crash (Part n) :=
  if h : stop ≤ n then .ok ⟨start, stop, h⟩ else .error (.rangeEnd stop n)

theorem add_lt {p : Part n} {i : Nat} (h : i < p.length) : p.start + i < n :=
  Nat.lt_of_lt_of_le (Nat.add_lt_of_lt_sub' h) p.stop_le

def get {α : Type} (p : Part n) (xs : Vector α n) (i : Nat) : Except Crash α :=
  if h : i < p.length then .ok (xs.get ⟨p.start + i, add_lt h⟩) else .error (.index i p.length)

end Part

end Offload
