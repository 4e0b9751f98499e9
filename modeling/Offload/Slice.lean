/-!
# Writing into a slice of fixed length

* `put xs i ys`  the list `xs` with `ys` written over it from position `i` on, as far as they fit.

The length never changes (`length_put`); what was written reads back and all else is left alone
(`getElem?_put`).  At the front, where most writes are, that is a split in two (`put_zero_eq_append`).
-/

namespace Offload.Slice

variable {α : Type}

def put (xs : List α) (i : Nat) (ys : List α) : List α :=
  xs.take i ++ (ys.take (xs.length - i) ++ xs.drop (i + ys.length))

theorem put_nil_left (i : Nat) (ys : List α) : put [] i ys = [] := by simp [put]

theorem put_nil_right (xs : List α) (i : Nat) : put xs i [] = xs := by simp [put]

theorem put_zero_cons (x y : α) (xs ys : List α) :
    put (x :: xs) 0 (y :: ys) = y :: put xs 0 ys := by
  simp [put]

theorem put_succ_cons (x : α) (xs : List α) (i : Nat) (ys : List α) :
    put (x :: xs) (i + 1) ys = x :: put xs i ys := by
  simp [put, Nat.add_right_comm i 1]

theorem length_put (xs : List α) (i : Nat) (ys : List α) : (put xs i ys).length = xs.length := by
  simp only [put, List.length_append, List.length_take, List.length_drop]
  omega

/-- Inside the written range the new element is read, outside it the old one. -/
theorem getElem?_put (xs : List α) (i : Nat) (ys : List α) (j : Nat) :
    (put xs i ys)[j]? =
      if i ≤ j ∧ j < i + ys.length ∧ j < xs.length then ys[j - i]? else xs[j]? := by
  induction xs generalizing i ys j with
  | nil => simp [put_nil_left]
  | cons x xs ih =>
    cases i with
    | zero =>
      cases ys with
      | nil => simp [put_nil_right]
      | cons y ys =>
        rw [put_zero_cons]
        cases j with
        | zero => simp
        | succ j => simp [ih]
    | succ i =>
      rw [put_succ_cons]
      cases j with
      | zero => simp
      | succ j =>
        have h : j + 1 < i + 1 + ys.length ↔ j < i + ys.length := by omega
        simp [ih, h]

/-- What fits at the front is followed by the rest as it was. -/
theorem put_zero_eq_append {xs ys : List α} (h : ys.length ≤ xs.length) :
    put xs 0 ys = ys ++ xs.drop ys.length := by
  simp [put, List.take_of_length_le h]

theorem put_of_length_eq {xs ys : List α} (h : xs.length = ys.length) : put xs 0 ys = ys := by
  rw [put_zero_eq_append (Nat.le_of_eq h.symm), ← h, List.drop_length, List.append_nil]

/-- To write a part of a list where it is changes nothing. -/
theorem put_drop_take (xs : List α) (i n : Nat) : put xs i ((xs.drop i).take n) = xs := by
  refine List.ext_getElem? fun j => ?_
  rw [getElem?_put]
  split
  · rename_i hj
    rw [List.length_take, List.length_drop] at hj
    rw [List.getElem?_take_of_lt (by omega), List.getElem?_drop, Nat.add_sub_cancel' hj.1]
  · rfl

end Offload.Slice
