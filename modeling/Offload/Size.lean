/-!
# Sizes

Lengths, widths, counts and byte numbers are naturals that a 64-bit word can hold.  Arithmetic on
them is exact; where a result may leave the range the operation says so.

* `limit`, `top`  the first natural that is no size, and the last that is one;
* `mul?`          a product, `none` from `limit` on;
* `isPower`       whether a size is a power of two, as alignments have to be.
-/

namespace Offload.Size

/-- the first natural that does not fit -/
def limit : Nat := Nat.pow 2 64

/-- the greatest size -/
def top : Nat := limit - 1

/-- the product of two sizes, if it is a size -/
def mul? (a b : Nat) : Option Nat :=
  if a * b < limit then some (a * b) else none

theorem mul?_eq_some {a b : Nat} (h : a * b < limit) : mul? a b = some (a * b) := by
  simp [mul?, h]

theorem mul?_eq_none {a b : Nat} (h : limit ≤ a * b) : mul? a b = none := by
  simp [mul?, Nat.not_lt.mpr h]

/-- Zero is no power of two. -/
def isPower (n : Nat) : Bool := Nat.pow 2 n.log2 == n

theorem isPower_iff (n : Nat) : isPower n = true ↔ ∃ k, n = Nat.pow 2 k := by
  constructor
  · intro h
    exact ⟨n.log2, (by simpa [isPower] using h : 2 ^ n.log2 = n).symm⟩
  · rintro ⟨k, rfl⟩
    simp [isPower]

end Offload.Size
