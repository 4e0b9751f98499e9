import Offload.Proofs.Extension.Origin
import Offload.Proofs.Kernel.Agreement

/-!
# The chunks of a submission

The chunks of a range tile it, unless the step that would give the last of them leaves the sizes.  No
submission comes that far.

* `le_of_check`        a submission that is let through has slices that are long enough;
* `steps_mul_lt`       the steps on a slice end inside the sizes;
* `tile_firstChunks`   where the first chunks lie;
* `isTail_firstChunks`, `not_isTail_firstChunks`  only the last step is a tail;
* `chunks_tile`        the tiling, its end, and the submissions of the kernels.
-/

namespace Offload.Kernel

variable {lanes count n k : Nat} {c : Chunk}

theorem le_of_check {k : Kernel} {s : Style} {output : Nat} {inputs : List Nat}
    (h : k.check s output inputs count = .ok ()) : count ≤ output ∧ ∀ len ∈ inputs, count ≤ len := by
  have hs : s.element = k.input := by
    by_contra hs
    unfold check at h
    rw [if_pos hs] at h
    cases h
  exact (Accelerator.kernelCheck_eq_ok_iff hs output inputs count).mp h

/-- The steps on a slice end inside the sizes, however wide the registers are. -/
theorem steps_mul_lt {s : Style} (hs : s.width < Size.limit) (hc : count < Block.layoutLimit) :
    steps s.lanes count * s.lanes < Size.limit := by
  have hle : steps s.lanes count * s.lanes ≤ count + s.lanes - 1 := Nat.div_mul_le_self ..
  have hlt := Style.add_lanes_lt hs hc
  omega

theorem Chunk.isTail_iff_length_ne (hl : 0 < lanes) :
    (Chunk.nth lanes count k).IsTail ↔
      (Chunk.nth lanes count k).stop - (Chunk.nth lanes count k).start ≠ lanes := by
  have hnext : (k + 1) * lanes = k * lanes + lanes := Nat.succ_mul k lanes
  rw [isTail_nth, start_nth, stop_nth]
  omega

/-- Each of the first chunks begins behind those before it, is not empty, and is a tail just if it is
shorter than a register. -/
theorem tile_firstChunks (hl : 0 < lanes) (hn : n ≤ steps lanes count)
    (h : (firstChunks lanes count n)[k]? = some c) :
    c.start = k * lanes ∧ c.stop = min ((k + 1) * lanes) count ∧ c.start < c.stop ∧
      (c.IsTail ↔ c.stop - c.start ≠ lanes) := by
  obtain ⟨hk, rfl⟩ := getElem?_firstChunks.mp h
  refine ⟨Chunk.start_nth .., Chunk.stop_nth .., ?_, Chunk.isTail_iff_length_ne hl⟩
  have hstart := (lt_steps_iff hl).mp (Nat.lt_of_lt_of_le hk hn)
  have hnext : (k + 1) * lanes = k * lanes + lanes := Nat.succ_mul k lanes
  rw [Chunk.start_nth, Chunk.stop_nth]
  omega

/-- Only the last step is a tail. -/
theorem isTail_firstChunks (hl : 0 < lanes) (h : (firstChunks lanes count (steps lanes count))[k]? = some c)
    (htail : c.IsTail) : k + 1 = steps lanes count := by
  obtain ⟨hk, rfl⟩ := getElem?_firstChunks.mp h
  have hnext : ¬ k + 1 < steps lanes count := fun hlt =>
    Nat.lt_asymm (Chunk.isTail_nth.mp htail) ((lt_steps_iff hl).mp hlt)
  omega

theorem not_isTail_firstChunks (h : c ∈ firstChunks lanes count (count / lanes)) : ¬ c.IsTail := by
  obtain ⟨k, hk, rfl⟩ := mem_firstChunks.mp h
  have hle : (k + 1) * lanes ≤ count :=
    Nat.le_trans (Nat.mul_le_mul_right lanes hk) (Nat.div_mul_le_self count lanes)
  exact fun htail => Nat.not_lt.mpr hle (Chunk.isTail_nth.mp htail)

theorem exists_firstChunks (s : Style) (hc : count < Size.limit) :
    ∃ n ≤ steps s.lanes count, (chunks s count).1 = firstChunks s.lanes count n := by
  rw [chunks_eq s hc]
  split
  · exact ⟨_, Nat.le_refl _, rfl⟩
  · have hl := s.lanes_pos
    exact ⟨_, Nat.div_le_div_right (by omega), rfl⟩

/-- **Chunks tile the range.**  They follow each other from the start, one register each but for a tail, and
none is empty.  If the last step ends inside the sizes, as many come as the range takes, they cover it, and
only the last can be a tail, which it is exactly if the lanes do not divide the count.  Else the whole
registers come, and the step after them overflows where there would be the tail; but no submission of a
kernel that is let through comes to that, whatever slices there can be. -/
theorem chunks_tile {s : Style} (hs : s.Obtainable) {count : Nat} (hc : count < Size.limit) :
    let lanes := s.lanes
    let n := steps lanes count
    let cs := (chunks s count).1
    (∀ k c, cs[k]? = some c →
      c.start = k * lanes ∧ c.stop = min ((k + 1) * lanes) count ∧ c.start < c.stop ∧
        (c.IsTail ↔ c.stop - c.start ≠ lanes)) ∧
    cs.Pairwise (·.stop ≤ ·.start) ∧
    (n * lanes < Size.limit →
      (chunks s count).2 = none ∧ cs.length = n ∧
      (∀ i, i < count ↔ ∃ c ∈ cs, c.start ≤ i ∧ i < c.stop) ∧
      (∀ k c, cs[k]? = some c → c.IsTail → k + 1 = n) ∧
      ((∃ c ∈ cs, c.IsTail) ↔ ¬ lanes ∣ count)) ∧
    (Size.limit ≤ n * lanes →
      (chunks s count).2 = some (.overflow "add") ∧ cs.length = count / lanes ∧ ∀ c ∈ cs, ¬ c.IsTail) ∧
    ∀ (k : Kernel) (arity : Nat), k.Reference arity →
      ∀ (out : List (Lane k.output)) (ins : List (List (Lane k.input))),
        out.length * k.output.bytes < Block.layoutLimit →
        k.check s out.length (ins.map (·.length)) count = .ok () →
        n * lanes < Size.limit ∧ (k.apply s out ins count).outcome = arityOutcome k.name arity ins.length := by
  intro lanes n cs
  have hl : 0 < lanes := s.lanes_pos
  have hall := chunks_eq s hc
  obtain ⟨m, hm, hfirst⟩ : ∃ m ≤ n, cs = firstChunks lanes count m := exists_firstChunks s hc
  refine ⟨fun k c h => tile_firstChunks hl hm (hfirst ▸ h), hfirst ▸ pairwise_firstChunks lanes count m,
    fun hn => ?_, fun hn => ?_, fun k arity hk out ins ho hcheck => ?_⟩
  · rw [if_pos hn] at hall
    have hcs : cs = firstChunks lanes count n := congrArg Prod.fst hall
    rw [hcs]
    exact ⟨congrArg Prod.snd hall, length_firstChunks .., fun i => lt_iff_exists_firstChunks hl,
      fun k c => isTail_firstChunks hl, exists_tail_iff hl⟩
  · rw [if_neg (Nat.not_lt.mpr hn)] at hall
    have hcs : cs = firstChunks lanes count (count / lanes) := congrArg Prod.fst hall
    rw [hcs]
    exact ⟨congrArg Prod.snd hall, length_firstChunks .., fun c => not_isTail_firstChunks⟩
  · obtain ⟨hout, hins⟩ := le_of_check hcheck
    have hlen : count < Block.layoutLimit :=
      Nat.lt_of_le_of_lt (Nat.le_trans hout (Nat.le_mul_of_pos_right _ k.output.bytes_pos)) ho
    obtain ⟨final, hu⟩ := hk.uniform
    exact ⟨steps_mul_lt hs.width_lt hlen,
      hu.outcome_eq hout (List.forall_mem_map.mp hins) (Nat.le_of_lt (Style.add_lanes_lt hs.width_lt hlen))⟩

/-- Four lanes: ten elements take two registers and a tail, and a kernel walks them.  For as many elements as
there can be the last step would end behind the sizes. -/
theorem chunks_tile_four :
    let s : Style := ⟨.u32, Style.logicTag, 128, by decide, by decide⟩
    s.Obtainable ∧ 10 < Size.limit ∧ Size.top < Size.limit ∧
      ((chunks s 10).2 = none ∧ (chunks s 10).1.length = 3 ∧ (∃ c ∈ (chunks s 10).1, c.IsTail) ∧
        (leadingZeros.apply s (List.replicate 10 0) [List.replicate 10 1] 10).outcome = .ok ()) ∧
      (chunks s Size.top).2 = some (.overflow "add") ∧
        (chunks s Size.top).1.length = 4611686018427387903 := by
  let s : Style := ⟨.u32, Style.logicTag, 128, by decide, by decide⟩
  have hmade : Style.accelerator .u32 128 = .ok s := rfl
  have hs : s.Obtainable := .accelerator (by decide) hmade
  have hten : 10 < Size.limit := by decide
  have htop : Size.top < Size.limit := by decide
  have hfits : steps s.lanes 10 * s.lanes < Size.limit := by decide
  have hlast : Size.limit ≤ steps s.lanes Size.top * s.lanes := by decide
  obtain ⟨-, -, hfit, -, hkernels⟩ := chunks_tile hs hten
  obtain ⟨hnone, hlength, -, -, htail⟩ := hfit hfits
  obtain ⟨-, houtcome⟩ := hkernels .leadingZeros 1 .leadingZeros (List.replicate 10 0)
    [List.replicate 10 1] (by decide) rfl
  obtain ⟨-, -, -, hover, -⟩ := chunks_tile hs htop
  obtain ⟨hoverflow, hmany, -⟩ := hover hlast
  have hthree : steps s.lanes 10 = 3 := by decide
  have hwhole : Size.top / s.lanes = 4611686018427387903 := by decide
  exact ⟨hs, hten, htop, ⟨hnone, hlength.trans hthree, htail.mpr (by decide), houtcome⟩, hoverflow,
    hmany.trans hwhole⟩

end Offload.Kernel
