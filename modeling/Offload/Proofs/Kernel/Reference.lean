import Mathlib.Data.List.Forall2
import Offload.Proofs.Kernel.Lanewise

/-!
# What the kernels do when they are called

A kernel that is called without an executor gets whatever it is given.  It looks at the number of its
inputs first; then it does what the shortest slice lets it do.

* `CountsZeros`           what it means to count leading zeros, without a logarithm;
* `sumBy_reach`, `leadingZeros_reach`  how far the two kernels come, and what they write;
* `reference_apply_exact` the two kernels, on any slices.
-/

namespace Offload.Kernel

/-- how many zero bits stand above the highest one bit -/
def CountsZeros (x c : BitVec 32) : Prop :=
  (x = 0 → c = 32) ∧
    (x ≠ 0 → c.toNat ≤ 31 ∧ Nat.pow 2 (31 - c.toNat) ≤ x.toNat ∧ x.toNat < Nat.pow 2 (32 - c.toNat))

theorem countsZeros_leadingZeros (x : BitVec 32) : CountsZeros x (Offload.leadingZeros x) :=
  ⟨fun h => h ▸ leadingZeros_zero, leadingZeros_spec⟩

section
variable {s : Style} (hs : s.width < Size.limit) (count : Nat)
include hs

theorem sumBy_reach {e : Element} (add : Lane e → Lane e → Lane e) {out : List (Lane e)}
    (ho : out.length < Block.layoutLimit) (xs ys : List (Lane e)) :
    let m := shortest out.length [xs.length, ys.length]
    let p := reach s.lanes m count
    let r := (sumBy e add).apply s out [xs, ys] count
    r.output = List.zipWith add (xs.take p) (ys.take p) ++ out.drop p ∧
      (count ≤ m → r.outcome = .ok ()) ∧ (m < count → ∃ crash, r.outcome = .error (.crash crash)) := by
  intro m p r
  obtain ⟨houtput, houtcome⟩ : r.output = (List.zipWith add xs ys).take p ++ out.drop p ∧ _ :=
    (lanewise_sumBy e add).apply_reach hs rfl ho
  rw [List.take_zipWith] at houtput
  exact ⟨houtput, houtcome⟩

theorem leadingZeros_reach {out : List (Lane .u32)} (ho : out.length < Block.layoutLimit)
    (xs : List (Lane .u32)) :
    let m := shortest out.length [xs.length]
    let p := reach s.lanes m count
    let r := leadingZeros.apply s out [xs] count
    (∃ counts : List (Lane .u32), List.Forall₂ CountsZeros (xs.take p) counts ∧
        r.output = counts ++ out.drop p) ∧
      (count ≤ m → r.outcome = .ok ()) ∧ (m < count → ∃ crash, r.outcome = .error (.crash crash)) := by
  intro m p r
  obtain ⟨houtput, houtcome⟩ : r.output = (xs.map countZeros).take p ++ out.drop p ∧ _ :=
    lanewise_leadingZeros.apply_reach hs rfl ho
  rw [← List.map_take] at houtput
  have hcounts : List.Forall₂ CountsZeros (xs.take p) ((xs.take p).map countZeros) :=
    List.forall₂_map_right_iff.mpr (List.forall₂_same.mpr fun x _ => countsZeros_leadingZeros x)
  exact ⟨⟨_, hcounts, houtput⟩, houtcome⟩

end

/-- **The kernels on any slices.**  With too many or too few inputs a kernel says so and leaves its output
alone.  Else the shortest slice, of `m` elements, decides.  If these are as many as are asked for, all of
them are computed; if not, the call crashes, and it has computed the whole registers that there are, and a
tail as far as there are elements.  What lies behind stays as it was; and how many lanes a register has does
not show in what is computed. -/
theorem reference_apply_exact {s : Style} (hs : s.width < Size.limit) (count : Nat) :
    (∀ (e : Element) (add : Lane e → Lane e → Lane e) (out : List (Lane e)),
      out.length < Block.layoutLimit →
      (∀ ins : List (List (Lane e)), ins.length ≠ 2 → (sumBy e add).apply s out ins count =
        ⟨out, .error (.error (.kernel "vector_add" s!"expected 2 inputs, got {ins.length}")), []⟩) ∧
      ∀ xs ys : List (Lane e),
        let m := shortest out.length [xs.length, ys.length]
        let p := reach s.lanes m count
        let r := (sumBy e add).apply s out [xs, ys] count
        r.output = List.zipWith add (xs.take p) (ys.take p) ++ out.drop p ∧
          (count ≤ m → r.outcome = .ok ()) ∧ (m < count → ∃ crash, r.outcome = .error (.crash crash))) ∧
    ∀ out : List (Lane .u32), out.length < Block.layoutLimit →
      (∀ ins : List (List (Lane .u32)), ins.length ≠ 1 → leadingZeros.apply s out ins count =
        ⟨out, .error (.error (.kernel "leading_zero_count" s!"expected 1 input, got {ins.length}")), []⟩) ∧
      ∀ xs : List (Lane .u32),
        let m := shortest out.length [xs.length]
        let p := reach s.lanes m count
        let r := leadingZeros.apply s out [xs] count
        (∃ counts : List (Lane .u32), List.Forall₂ CountsZeros (xs.take p) counts ∧
            r.output = counts ++ out.drop p) ∧
          (count ≤ m → r.outcome = .ok ()) ∧
          (m < count → ∃ crash, r.outcome = .error (.crash crash)) := by
  exact ⟨fun e add out ho => ⟨fun ins ha => (lanewise_sumBy e add).refused ha, sumBy_reach hs count add ho⟩,
    fun out ho => ⟨fun ins ha => lanewise_leadingZeros.refused ha, leadingZeros_reach hs count ho⟩⟩

/-- Four lanes and six elements that are there: of seven that are asked for the last register is a tail, and
six sums are written; of nine it is a whole register, and only four are. -/
theorem reference_apply_exact_short :
    (32 < Size.limit ∧ 6 < Block.layoutLimit) ∧
      let s : Style := ⟨.u8, Style.logicTag, 32, by decide, by decide⟩
      let r := (sum .u8).apply s [0, 0, 0, 0, 0, 0] [[250, 2, 3, 4, 5, 6, 7], [10, 20, 30, 40, 50, 60]]
      (∃ crash, (r 7).outcome = .error (.crash crash)) ∧ (r 7).output = [4, 22, 33, 44, 55, 66] ∧
      (∃ crash, (r 9).outcome = .error (.crash crash)) ∧ (r 9).output = [4, 22, 33, 44, 0, 0] := by
  let s : Style := ⟨.u8, Style.logicTag, 32, by decide, by decide⟩
  have hs : s.width < Size.limit := by decide
  let out : List (Lane .u8) := [0, 0, 0, 0, 0, 0]
  let xs : List (Lane .u8) := [250, 2, 3, 4, 5, 6, 7]
  let ys : List (Lane .u8) := [10, 20, 30, 40, 50, 60]
  have ho : out.length < Block.layoutLimit := by decide
  have hseven : reach s.lanes (shortest out.length [xs.length, ys.length]) 7 = 6 := by decide
  have hnine : reach s.lanes (shortest out.length [xs.length, ys.length]) 9 = 4 := by decide
  obtain ⟨houtput7, -, houtcome7⟩ := ((reference_apply_exact hs 7).1 .u8 Lane.add out ho).2 xs ys
  obtain ⟨houtput9, -, houtcome9⟩ := ((reference_apply_exact hs 9).1 .u8 Lane.add out ho).2 xs ys
  rw [hseven] at houtput7
  rw [hnine] at houtput9
  exact ⟨⟨hs, ho⟩, houtcome7 (by decide), houtput7, houtcome9 (by decide), houtput9⟩

end Offload.Kernel
