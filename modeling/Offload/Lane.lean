import Offload.Element

/-!
# Lanes

A lane is the bit pattern of one element.  Memory holds it little-endian.

* `Bytes.ofNat`, `Bytes.toNat`  fixed-width little-endian numbers: `toNat_ofNat`, `ofNat_toNat`;
* `Bytes.split`                 a number at the front of some bytes, and the bytes behind it
                                (`split_eq`);
* `Lane.bytes`, `Lane.ofBytes`  the bytes of a lane and the way back (`ofBytes_bytes`,
  `bytes_ofBytes`), so no pattern is lost, the payload of a NaN included;
* `Lane.split`                  a lane at the front of some bytes, and the bytes behind it;
* `Lane.add`                    addition in the type: integers wrap, floating point rounds once;
* `Lane.ofInt?`, `Lane.toInt`   integers, signed where the type is.
-/

namespace Offload

namespace Bytes

/-- the `n` low bytes of a natural, least significant first -/
def ofNat : Nat → Nat → List UInt8
  | 0, _ => []
  | n + 1, v => UInt8.ofNat v :: ofNat n (v / 256)

/-- the natural with these bytes, least significant first -/
def toNat : List UInt8 → Nat
  | [] => 0
  | b :: bs => b.toNat + 256 * toNat bs

/-- the number in the first `n` bytes, and the bytes behind them -/
def split : Nat → List UInt8 → Nat × List UInt8
  | 0, bs => (0, bs)
  | _ + 1, [] => (0, [])
  | n + 1, b :: bs =>
    let (v, rest) := split n bs
    (b.toNat + 256 * v, rest)

theorem split_eq (n : Nat) (bs : List UInt8) : split n bs = (toNat (bs.take n), bs.drop n) := by
  induction n generalizing bs with
  | zero => rfl
  | succ n ih =>
    cases bs with
    | nil => rfl
    | cons b bs => rw [split, ih]; rfl

theorem length_ofNat (n v : Nat) : (ofNat n v).length = n := by
  induction n generalizing v with
  | zero => rfl
  | succ n ih => simp [ofNat, ih]

theorem toNat_ofNat (n v : Nat) : toNat (ofNat n v) = v % Nat.pow 256 n := by
  induction n generalizing v with
  | zero => simp [ofNat, toNat, Nat.mod_one]
  | succ n ih =>
    show (UInt8.ofNat v).toNat + 256 * toNat (ofNat n (v / 256)) = v % Nat.pow 256 (n + 1)
    have h : Nat.pow 256 (n + 1) = 256 * Nat.pow 256 n := Nat.pow_succ'
    rw [ih, UInt8.toNat_ofNat', h, Nat.mod_mul]

theorem toNat_lt (bs : List UInt8) : toNat bs < Nat.pow 256 bs.length := by
  induction bs with
  | nil => simp [toNat]
  | cons b bs ih =>
    have hb := b.toNat_lt
    have hp : Nat.pow 256 (bs.length + 1) = Nat.pow 256 bs.length * 256 := rfl
    simp only [toNat, List.length_cons]
    omega

theorem ofNat_toNat (bs : List UInt8) : ofNat bs.length (toNat bs) = bs := by
  induction bs with
  | nil => rfl
  | cons b bs ih =>
    have hb := b.toNat_lt
    have hd : (b.toNat + 256 * toNat bs) / 256 = toNat bs := by omega
    have hm : UInt8.ofNat (b.toNat + 256 * toNat bs) = b := by
      apply UInt8.toNat_inj.mp
      rw [UInt8.toNat_ofNat']
      omega
    simp only [List.length_cons, toNat, ofNat, hd, hm, ih]

end Bytes

/-- the bit pattern of one element -/
abbrev Lane (e : Element) : Type := BitVec e.bits

namespace Lane

variable {e : Element}

/-- in memory order -/
def bytes (v : Lane e) : List UInt8 := Bytes.ofNat e.bytes v.toNat

def ofBytes (bs : List UInt8) : Lane e := BitVec.ofNat e.bits (Bytes.toNat bs)

theorem two_pow_bits (e : Element) : Nat.pow 2 e.bits = Nat.pow 256 e.bytes :=
  Nat.pow_mul 2 8 e.bytes

theorem length_bytes (v : Lane e) : v.bytes.length = e.bytes := Bytes.length_ofNat _ _

theorem ofBytes_bytes (v : Lane e) : ofBytes v.bytes = v := by
  apply BitVec.eq_of_toNat_eq
  rw [ofBytes, bytes, Bytes.toNat_ofNat, BitVec.toNat_ofNat, ← two_pow_bits, Nat.pow_eq, Nat.mod_mod,
    Nat.mod_eq_of_lt v.isLt]

theorem bytes_ofBytes {bs : List UInt8} (h : bs.length = e.bytes) :
    (ofBytes bs : Lane e).bytes = bs := by
  have hlt := Bytes.toNat_lt bs
  rw [h, ← two_pow_bits, Nat.pow_eq] at hlt
  rw [bytes, ofBytes, BitVec.toNat_ofNat, Nat.mod_eq_of_lt hlt, ← h, Bytes.ofNat_toNat]

theorem fst_split_lt (bs : List UInt8) : (Bytes.split e.bytes bs).1 < Nat.pow 2 e.bits := by
  rw [Bytes.split_eq, two_pow_bits]
  have hl : (bs.take e.bytes).length ≤ e.bytes := by
    rw [List.length_take]
    exact Nat.min_le_left ..
  exact Nat.lt_of_lt_of_le (Bytes.toNat_lt _) (Nat.pow_le_pow_right (by decide) hl)

/-- the lane in the first bytes, and the bytes behind it -/
def split (bs : List UInt8) : Lane e × List UInt8 :=
  (BitVec.ofNatLT (Bytes.split e.bytes bs).1 (fst_split_lt bs), (Bytes.split e.bytes bs).2)

theorem split_eq (bs : List UInt8) :
    (split bs : Lane e × List UInt8) = (ofBytes (bs.take e.bytes), bs.drop e.bytes) := by
  have h : (Bytes.split e.bytes bs).1 = Bytes.toNat (bs.take e.bytes) := by rw [Bytes.split_eq]
  have hr : (Bytes.split e.bytes bs).2 = bs.drop e.bytes := by rw [Bytes.split_eq]
  refine Prod.ext (BitVec.eq_of_toNat_eq ?_) hr
  show (Bytes.split e.bytes bs).1 = (BitVec.ofNat e.bits (Bytes.toNat (bs.take e.bytes))).toNat
  rw [BitVec.toNat_ofNat, ← h]
  exact (Nat.mod_eq_of_lt (fst_split_lt bs)).symm

/-- the sum of two 32-bit floating point patterns -/
def addSingle (a b : BitVec 32) : BitVec 32 :=
  (Float32.ofBits ⟨a⟩ + Float32.ofBits ⟨b⟩).toBits.toBitVec

/-- the sum of two 64-bit floating point patterns -/
def addDouble (a b : BitVec 64) : BitVec 64 :=
  (Float.ofBits ⟨a⟩ + Float.ofBits ⟨b⟩).toBits.toBitVec

/-- Integers of either sign wrap around; floating point follows IEEE 754. -/
def add : {e : Element} → Lane e → Lane e → Lane e
  | .f32, a, b => addSingle a b
  | .f64, a, b => addDouble a b
  | .u8, a, b | .u16, a, b | .u32, a, b | .u64, a, b => BitVec.add a b
  | .i8, a, b | .i16, a, b | .i32, a, b | .i64, a, b => BitVec.add a b

/-- the value of an integer lane, signed where the type is; for floating point that of the pattern -/
def toInt (v : Lane e) : Int := if e.isSigned then BitVec.toInt v else v.toNat

/-- the lane that holds an integer, if the integer lies in the range of the type -/
def ofInt? (n : Int) : Option (Lane e) :=
  let v : Lane e := BitVec.ofInt e.bits n
  if toInt v = n then some v else none

/-- whether the pattern is one of the many for "not a number" -/
def isNaN : {e : Element} → Lane e → Bool
  | .f32, v => (BitVec.toNat v) % Nat.pow 2 31 > 0x7F800000
  | .f64, v => (BitVec.toNat v) % Nat.pow 2 63 > 0x7FF0000000000000
  | _, _ => false

end Lane

end Offload
