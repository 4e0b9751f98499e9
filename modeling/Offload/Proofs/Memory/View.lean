import Mathlib.Data.Nat.Digits.Defs
import Offload.Proofs.Memory.Block

/-!
# Views of a block

A view shows the first bytes of a block as lanes of a type.  Every type shows the same bits, only cut into
other lanes.

* `Memory.bit`, `Memory.laneBit`   the bits of some bytes, and those of some lanes: to write lanes and to read
                                   them keeps every bit (`bit_encode`, `laneBit_decode`);
* `Memory.LittleEndian`            lanes that are the values of the bytes they lie on;
* `Memory.Recut`                   lanes of one type on the bits of lanes of another;
* `Block.bit_store`                a write replaces the first bits of a block, and no others;
* `Block.views_are_windows`        what is seen of a block, and what writing through a view does to it.
-/

namespace Offload

namespace Memory

variable {e : Element}

/-! ## bits -/

section
variable {α : Type} (width : Nat) (read : α → Nat → Bool)

/-- bit `k` of a row of words; behind them none is set -/
def rowBit (xs : List α) (k : Nat) : Bool := xs[k / width]?.elim false (read · (k % width))

theorem rowBit_nil (k : Nat) : rowBit width read [] k = false := rfl

theorem rowBit_cons (hw : 0 < width) (x : α) (xs : List α) (k : Nat) :
    rowBit width read (x :: xs) k = if k < width then read x k else rowBit width read xs (k - width) := by
  unfold rowBit
  by_cases hk : k < width
  · rw [if_pos hk, Nat.div_eq_of_lt hk, Nat.mod_eq_of_lt hk]
    rfl
  · have hle := Nat.le_of_not_lt hk
    rw [if_neg hk, Nat.div_eq_sub_div hw hle, Nat.mod_eq_sub_mod hle, List.getElem?_cons_succ]

end

/-- the bits of bytes, the lowest of each first -/
def bit : List UInt8 → Nat → Bool := rowBit 8 fun b => b.toNat.testBit

/-- the bits of lanes, the lowest of each first -/
def laneBit : List (Lane e) → Nat → Bool := rowBit e.bits BitVec.getLsbD

theorem bit_nil (k : Nat) : bit [] k = false := rowBit_nil ..

theorem bit_cons (b : UInt8) (bs : List UInt8) (k : Nat) :
    bit (b :: bs) k = if k < 8 then b.toNat.testBit k else bit bs (k - 8) :=
  rowBit_cons 8 _ (by decide) b bs k

theorem laneBit_nil (k : Nat) : laneBit ([] : List (Lane e)) k = false := rowBit_nil ..

theorem laneBit_cons (x : Lane e) (xs : List (Lane e)) (k : Nat) :
    laneBit (x :: xs) k = if k < e.bits then x.getLsbD k else laneBit xs (k - e.bits) :=
  rowBit_cons e.bits _ e.bits_pos x xs k

theorem bit_append (as bs : List UInt8) (k : Nat) :
    bit (as ++ bs) k = if k < 8 * as.length then bit as k else bit bs (k - 8 * as.length) := by
  unfold bit rowBit
  by_cases hk : k < 8 * as.length
  · have hlt : k / 8 < as.length := by omega
    rw [if_pos hk, List.getElem?_append_left hlt]
  · have hle : as.length ≤ k / 8 := by omega
    have hdiv : k / 8 - as.length = (k - 8 * as.length) / 8 := by omega
    have hmod : k % 8 = (k - 8 * as.length) % 8 := by omega
    rw [if_neg hk, List.getElem?_append_right hle, hdiv, hmod]

theorem bit_drop (bs : List UInt8) (n k : Nat) : bit (bs.drop n) k = bit bs (8 * n + k) := by
  unfold bit rowBit
  have hdiv : (8 * n + k) / 8 = n + k / 8 := by omega
  have hmod : (8 * n + k) % 8 = k % 8 := by omega
  rw [List.getElem?_drop, hdiv, hmod]

/-! ## numbers in bytes -/

theorem toNat_eq_ofDigits (bs : List UInt8) :
    Bytes.toNat bs = Nat.ofDigits 256 (bs.map UInt8.toNat) := by
  induction bs with
  | nil => rfl
  | cons b bs ih => rw [Bytes.toNat, ih, List.map_cons, Nat.ofDigits_cons]

/-- A number has the bits of its bytes, as each byte is below 2 ^ 8. -/
theorem testBit_toNat (bs : List UInt8) (k : Nat) : (Bytes.toNat bs).testBit k = bit bs k := by
  induction bs generalizing k with
  | nil => exact (Nat.zero_testBit k).trans (bit_nil k).symm
  | cons b bs ih =>
    have hb : b.toNat < 2 ^ 8 := b.toNat_lt
    show (b.toNat + 2 ^ 8 * Bytes.toNat bs).testBit k = _
    rw [Nat.add_comm, Nat.testBit_two_pow_mul_add _ hb, ih, bit_cons]

theorem toNat_ofBytes {bs : List UInt8} (h : bs.length ≤ e.bytes) :
    (Lane.ofBytes bs : Lane e).toNat = Bytes.toNat bs := by
  have hlt : Bytes.toNat bs < 2 ^ e.bits := by
    calc Bytes.toNat bs < Nat.pow 256 bs.length := Bytes.toNat_lt bs
      _ ≤ Nat.pow 256 e.bytes := Nat.pow_le_pow_right (by decide) h
      _ = 2 ^ e.bits := (Lane.two_pow_bits e).symm
  rw [Lane.ofBytes, BitVec.toNat_ofNat, Nat.mod_eq_of_lt hlt]

theorem bit_bytes (x : Lane e) (k : Nat) : bit x.bytes k = x.getLsbD k := by
  have hx : Bytes.toNat x.bytes = x.toNat := by
    rw [← toNat_ofBytes (Nat.le_of_eq x.length_bytes), Lane.ofBytes_bytes]
  rw [← testBit_toNat, hx]
  rfl

/-! ## lanes in bytes -/

/-- Lanes are written bit for bit. -/
theorem bit_encode (xs : List (Lane e)) (k : Nat) : bit (encode xs) k = laneBit xs k := by
  induction xs generalizing k with
  | nil => exact (bit_nil k).trans (laneBit_nil k).symm
  | cons x xs ih =>
    rw [encode_cons, bit_append, laneBit_cons, Lane.length_bytes, bit_bytes, ih]
    rfl

theorem eight_mul_bytes (e : Element) (n : Nat) : 8 * (n * e.bytes) = n * e.bits := Nat.mul_left_comm ..

/-- Lanes are read bit for bit: what is read is written back to the same bytes. -/
theorem laneBit_decode {n : Nat} {bs : List UInt8} (h : n * e.bytes ≤ bs.length) {k : Nat}
    (hk : k < n * e.bits) : laneBit (decode n bs : List (Lane e)) k = bit bs k := by
  have hfront : k < 8 * (bs.take (n * e.bytes)).length := by
    rw [List.length_take, Nat.min_eq_left h, eight_mul_bytes]
    exact hk
  have happend := bit_append (bs.take (n * e.bytes)) (bs.drop (n * e.bytes)) k
  rw [List.take_append_drop, if_pos hfront] at happend
  rw [← bit_encode, encode_decode h, happend]

theorem getElem?_decode {n i : Nat} (h : i < n) (bs : List UInt8) :
    (decode n bs : List (Lane e))[i]? = some (Lane.ofBytes ((bs.drop (i * e.bytes)).take e.bytes)) := by
  have hn : n - i = n - i - 1 + 1 := by omega
  rw [← List.head?_drop, drop_decode, hn, decode_succ]
  rfl

/-- So many lanes, each the number in the bytes it lies on, of which the first counts least. -/
structure LittleEndian (n : Nat) (bs : List UInt8) (xs : List (Lane e)) : Prop where
  length_eq : xs.length = n
  value_eq : ∀ {i x}, xs[i]? = some x →
    x.toNat = Nat.ofDigits 256 (((bs.drop (i * e.bytes)).take e.bytes).map UInt8.toNat)

theorem littleEndian_decode (n : Nat) (bs : List UInt8) :
    LittleEndian n bs (decode n bs : List (Lane e)) where
  length_eq := length_decode n bs
  value_eq {i x} h := by
    have hi : i < n := by
      have hlt := (List.getElem?_eq_some_iff.mp h).1
      rwa [length_decode] at hlt
    rw [getElem?_decode hi] at h
    cases h
    rw [toNat_ofBytes (List.length_take_le ..), toNat_eq_ofDigits]

/-- The bits of the lanes `ys` are those of the lanes `xs` and behind them, in their places, those of the
bytes. -/
def Recut {e' : Element} (xs : List (Lane e)) (bs : List UInt8) (ys : List (Lane e')) : Prop :=
  ∀ k < ys.length * e'.bits, laneBit ys k = if k < xs.length * e.bits then laneBit xs k else bit bs k

end Memory

namespace Block

open Memory

variable {grants : Allocator} {size alignment : Nat} {b : Block} {e e' : Element} {xs : List (Lane e)}
  {count n : Nat}

/-! ## the bits of a block -/

theorem bit_store (h : xs.length * e.bytes ≤ b.size) (k : Nat) :
    bit (b.store xs).bytes k = if k < xs.length * e.bits then laneBit xs k else bit b.bytes k := by
  rw [bytes_store h, bit_append, length_encode, eight_mul_bytes, bit_encode]
  split
  · rfl
  · rename_i hk
    rw [bit_drop, eight_mul_bytes, Nat.add_sub_cancel' (Nat.le_of_not_lt hk)]

/-- Lanes that were written are seen in any other type with the same bits. -/
theorem exists_view_store (hx : xs.length * e.bytes ≤ b.size) (h : b.Suits e') (hn : n * e'.bytes ≤ b.size) :
    ∃ zs, (b.store xs).view e' n = .ok zs ∧ LittleEndian n (b.store xs).bytes zs ∧ Recut xs b.bytes zs := by
  have hcheck : (b.store xs).check e' n = .ok () :=
    (b.check_store xs e' n).trans (check_of_le hn h.size_lt h.aligned)
  refine ⟨_, view_eq_ok_iff.mpr ⟨hcheck, rfl⟩, littleEndian_decode n _, fun k hk => ?_⟩
  rw [length_decode] at hk
  rw [laneBit_decode (le_size_of_check hcheck) hk, bit_store hx]

/-! ## reading and writing -/

/-- **Views are windows on the bytes.**  Whatever was written to a block since it was fresh, it has the size
and the alignment that were asked for.  In a type that suits its alignment just those views are refused, to be
read or to be changed, that are longer than the block.  Any other shows the little-endian numbers in its first
bytes.  A change of it is seen in it, and nothing behind it changes.  Lanes that are written are read back as
they were, and in any other type as the same bits.  To turn a view round twice gives the block again. -/
theorem views_are_windows (hb : Reached grants size alignment b) (he : e.bytes ≤ alignment) (count : Nat) :
    b.size = size ∧ b.alignment = alignment ∧
    (∀ c, b.view e count = .error c ↔ size < count * e.bytes ∧ c = overrun size (count * e.bytes)) ∧
    (∀ change c, b.update e count change = .error c ↔
      size < count * e.bytes ∧ c = overrun size (count * e.bytes)) ∧
    (count * e.bytes ≤ size → ∃ xs, b.view e count = .ok xs ∧ LittleEndian count b.bytes xs ∧
      (∀ change, ∃ b', b.update e count change = .ok b' ∧ b'.size = size ∧ b'.alignment = alignment ∧
        b'.view e count = .ok (Slice.put xs 0 (change xs)) ∧
        b'.bytes.drop (count * e.bytes) = b.bytes.drop (count * e.bytes)) ∧
      (∀ ys : List (Lane e), ys.length = count → ∃ b', b.update e count (fun _ => ys) = .ok b' ∧
        b'.view e count = .ok ys ∧
        ∀ (e' : Element) (n : Nat), e'.bytes ≤ alignment → n * e'.bytes ≤ size →
          ∃ zs, b'.view e' n = .ok zs ∧ LittleEndian n b'.bytes zs ∧ Recut ys b.bytes zs) ∧
      ∃ b', b.update e count List.reverse = .ok b' ∧ b'.view e count = .ok xs.reverse ∧
        b'.update e count List.reverse = .ok b) := by
  have hs : b.Suits e := hb.suits he
  have hsize := hb.size_eq
  have hrefused : ∀ c, b.view e count = .error c ↔
      size < count * e.bytes ∧ c = overrun size (count * e.bytes) := by
    intro c
    rw [hs.view_eq_error_iff, hsize]
  refine ⟨hsize, hb.alignment_eq, hrefused, fun _ c => update_eq_error_iff.trans (hrefused c), fun hle => ?_⟩
  have hview := hs.view_of_le (hsize.symm ▸ hle)
  refine ⟨_, hview, littleEndian_decode count b.bytes, fun change => ?_, fun ys hy => ?_,
    update_reverse_reverse hview⟩
  · obtain ⟨b', hu, hseen, hbehind⟩ := exists_update hview change
    have hb' := hb.update hu
    exact ⟨b', hu, hb'.size_eq, hb'.alignment_eq, hseen, hbehind⟩
  · have hy' : ys.length * e.bytes ≤ b.size := hy.symm ▸ le_size_of_view hview
    have hu : b.update e count (fun _ => ys) = .ok (b.store ys) :=
      update_of_length_eq hview (hy.trans (length_of_view hview).symm)
    exact ⟨_, hu, view_store_of_view hview hy,
      fun e' n he' hn => exists_view_store hy' (hb.suits he') (hsize.symm ▸ hn)⟩

/-- eleven bytes at an alignment of eight -/
def sample : Block := ⟨[1, 2, 3, 4, 5, 6, 7, 8, 9, 10, 11], 8⟩

theorem reached_sample : Reached (fun _ _ => true) 11 8 sample :=
  .replace (.zeroed (b := ⟨List.replicate 11 0, 8⟩) rfl) rfl

/-- a pattern for "not a number" that signals and carries a payload -/
def payload : Lane .f64 := 0x7FF0DEADBEEF0001

/-- One double fits there, two do not, and the bytes of some cannot even be counted.  The pattern comes back as
it was written, and five words of sixteen bits show it with the two bytes behind it. -/
theorem views_are_windows_sample : Reached (fun _ _ => true) 11 8 sample ∧ Element.f64.bytes ≤ 8 ∧
    sample.view .f64 2 = .error (.rangeEnd 16 11) ∧
    sample.update .f64 (Nat.pow 2 61) List.reverse = .error (.overflow "multiply") ∧
    ∃ b' zs, sample.update .f64 1 (fun _ => [payload]) = .ok b' ∧ b'.view .f64 1 = .ok [payload] ∧
      b'.view .i16 5 = .ok zs ∧ Recut [payload] sample.bytes zs ∧
      zs = [0x0001, 0xBEEF, 0xDEAD, 0x7FF0, 0x0A09] := by
  have he : Element.f64.bytes ≤ 8 := by decide
  obtain ⟨-, -, htwo, -⟩ := views_are_windows reached_sample he 2
  obtain ⟨-, -, -, hmany, -⟩ := views_are_windows reached_sample he (Nat.pow 2 61)
  obtain ⟨-, -, -, -, hone⟩ := views_are_windows reached_sample he 1
  obtain ⟨-, -, -, -, hwrite, -⟩ := hone (by decide)
  obtain ⟨b', hu, hback, hother⟩ := hwrite [payload] rfl
  obtain ⟨zs, hzs, -, hcut⟩ := hother .i16 5 (by decide) (by decide)
  have hbytes : sample.update .f64 1 (fun _ => [payload]) =
      .ok ⟨[0x01, 0x00, 0xEF, 0xBE, 0xAD, 0xDE, 0xF0, 0x7F, 9, 10, 11], 8⟩ := rfl
  cases hbytes.symm.trans hu
  exact ⟨reached_sample, he, (htwo _).mpr ⟨by decide, rfl⟩, (hmany _ _).mpr ⟨by decide, by decide⟩, _, zs,
    hu, hback, hzs, hcut, Except.ok.inj (hzs.symm.trans rfl)⟩

end Block

end Offload
