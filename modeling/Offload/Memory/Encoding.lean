import Offload.Lane

/-!
# Slices in memory

* `Memory.encode`  the bytes of a list of lanes, one lane behind the other;
* `Memory.decode`  the first lanes that some bytes hold.

A slice reads back as it was written, whatever follows it (`decode_encode_append`), and bytes that are
read as lanes are written back as they were (`encode_decode`).
-/

namespace Offload.Memory

variable {e : Element}

def encode (xs : List (Lane e)) : List UInt8 := xs.flatMap Lane.bytes

def decode : Nat → List UInt8 → List (Lane e)
  | 0, _ => []
  | n + 1, bs =>
    let (x, rest) := Lane.split bs
    x :: decode n rest

theorem decode_succ (n : Nat) (bs : List UInt8) : (decode (n + 1) bs : List (Lane e)) =
    Lane.ofBytes (bs.take e.bytes) :: decode n (bs.drop e.bytes) := by
  rw [decode, Lane.split_eq]

theorem encode_nil : encode ([] : List (Lane e)) = [] := rfl

theorem encode_cons (x : Lane e) (xs : List (Lane e)) : encode (x :: xs) = x.bytes ++ encode xs := rfl

theorem length_encode (xs : List (Lane e)) : (encode xs).length = xs.length * e.bytes := by
  induction xs with
  | nil => simp [encode]
  | cons x xs ih =>
    rw [encode_cons, List.length_append, ih, Lane.length_bytes, List.length_cons, Nat.succ_mul,
      Nat.add_comm]

theorem length_decode (n : Nat) (bs : List UInt8) : (decode n bs : List (Lane e)).length = n := by
  induction n generalizing bs with
  | zero => rfl
  | succ n ih => rw [decode_succ, List.length_cons, ih]

/-- What follows the slice does not matter. -/
theorem decode_encode_append (xs : List (Lane e)) (bs : List UInt8) :
    decode xs.length (encode xs ++ bs) = xs := by
  induction xs with
  | nil => rfl
  | cons x xs ih =>
    have hx : x.bytes.length = e.bytes := Lane.length_bytes x
    rw [List.length_cons, decode_succ, encode_cons, List.append_assoc, ← hx, List.take_left,
      List.drop_left, Lane.ofBytes_bytes, ih]

theorem encode_decode {n : Nat} {bs : List UInt8} (h : n * e.bytes ≤ bs.length) :
    encode (decode n bs : List (Lane e)) = bs.take (n * e.bytes) := by
  induction n generalizing bs with
  | zero => simp [decode, encode_nil]
  | succ n ih =>
    rw [Nat.succ_mul] at h
    rw [decode_succ, encode_cons, ih (by rw [List.length_drop]; omega),
      Lane.bytes_ofBytes (by rw [List.length_take]; omega), Nat.succ_mul, Nat.add_comm (n * e.bytes),
      List.take_add]

/-- The first lanes do not depend on what is behind them. -/
theorem take_decode {k n : Nat} (h : k ≤ n) (bs : List UInt8) :
    (decode n bs : List (Lane e)).take k = decode k bs := by
  induction n generalizing k bs with
  | zero => rw [Nat.le_zero.mp h, List.take_zero, decode]
  | succ n ih =>
    cases k with
    | zero => rw [List.take_zero, decode]
    | succ k => rw [decode_succ, List.take_succ_cons, ih (Nat.le_of_succ_le_succ h), ← decode_succ]

theorem drop_decode (k n : Nat) (bs : List UInt8) :
    (decode n bs : List (Lane e)).drop k = decode (n - k) (bs.drop (k * e.bytes)) := by
  induction k generalizing n bs with
  | zero => rw [Nat.zero_mul]; rfl
  | succ k ih =>
    cases n with
    | zero => rw [Nat.zero_sub, decode, decode, List.drop_nil]
    | succ n =>
      rw [decode_succ, List.drop_succ_cons, ih, List.drop_drop, Nat.succ_mul, Nat.succ_sub_succ,
        Nat.add_comm e.bytes]

/-- A slice over the first bytes replaces the first lanes and no others. -/
theorem decode_encode_drop {n : Nat} {xs : List (Lane e)} (h : xs.length ≤ n) (bs : List UInt8) :
    decode n (encode xs ++ bs.drop (xs.length * e.bytes)) = xs ++ (decode n bs).drop xs.length := by
  rw [drop_decode]
  induction xs generalizing n bs with
  | nil => rw [List.length_nil, Nat.zero_mul]; rfl
  | cons x xs ih =>
    cases n with
    | zero => exact absurd h (Nat.not_succ_le_zero _)
    | succ n =>
      have hx : x.bytes.length = e.bytes := Lane.length_bytes x
      have hd : bs.drop ((xs.length + 1) * e.bytes) = (bs.drop e.bytes).drop (xs.length * e.bytes) := by
        rw [List.drop_drop, Nat.succ_mul, Nat.add_comm e.bytes]
      rw [List.length_cons, hd, decode_succ, encode_cons, List.append_assoc, ← hx, List.take_left,
        List.drop_left, Lane.ofBytes_bytes, hx, ih (Nat.le_of_succ_le_succ h), Nat.succ_sub_succ]
      rfl

theorem decode_replicate (n m : Nat) (h : n * e.bytes ≤ m) :
    (decode n (List.replicate m 0) : List (Lane e)) = List.replicate n 0 := by
  induction n generalizing m with
  | zero => rfl
  | succ n ih =>
    rw [Nat.succ_mul] at h
    have hz : ∀ k, Bytes.toNat (List.replicate k 0) = 0 := by
      intro k
      induction k with
      | zero => rfl
      | succ k ih => simp [List.replicate_succ, Bytes.toNat, ih]
    have hl : (Lane.ofBytes (List.replicate (min e.bytes m) 0) : Lane e) = 0 := by
      rw [Lane.ofBytes, hz]
      rfl
    rw [decode_succ, List.take_replicate, List.drop_replicate, ih _ (by omega), hl,
      ← List.replicate_succ]

end Offload.Memory
