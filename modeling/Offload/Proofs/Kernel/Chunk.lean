import Offload.Kernel.Chunk
import Offload.Memory.Block

/-!
# Chunks tile a range

A walk takes whole registers as long as there are any, and then what is left.

* `Chunk.walk_eq`       a walk, one step at a time; `next_vector`, `next_tail`, `next_finished` and
                        `next_overflow` are the steps;
* `Chunk.walk_vectors`  whole registers one after the other, up to a multiple of the lanes;
* `steps`               how many steps a number of elements takes (`lt_steps_iff`);
* `Chunk.nth`           the chunk of a certain number, and where it lies;
* `chunks_eq`           the chunks are these, up to the end or to the step that leaves the sizes;
* `lt_iff_exists_firstChunks`, `pairwise_firstChunks`, `exists_tail_iff`  so they cover the range, apart
                        from each other, and there is a tail exactly where the lanes do not divide the count;
* `Style.add_lanes_lt`  no slice is so long that a step on it leaves the sizes.
-/

namespace Offload

/-- No register is so wide that a step behind the end of a slice leaves the sizes. -/
theorem Style.add_lanes_lt {s : Style} (hw : s.width < Size.limit) {count : Nat}
    (hc : count < Block.layoutLimit) : count + s.lanes < Size.limit := by
  have hbits : 8 ≤ s.element.bits := Nat.le_mul_of_pos_right 8 s.element.bytes_pos
  have hlanes : s.lanes * 8 ≤ s.width :=
    Nat.le_trans (Nat.mul_le_mul_left _ hbits) (Nat.le_of_eq s.lanes_mul_bits)
  have hlimit : Size.limit = 2 ^ 64 := rfl
  have hlayout : Block.layoutLimit = 2 ^ 63 := rfl
  omega

namespace Kernel

namespace Chunk

variable {σ : Type} {lanes count position : Nat} {hl : 0 < lanes} {body : Chunk → σ → σ × Option Crash}
  {s t : σ} {c : Chunk}

/-! ## steps -/

theorem next_finished (h : count ≤ position) : next lanes count position = .finished := if_pos h

theorem next_overflow (hp : position < count) (hs : Size.limit ≤ position + lanes) :
    next lanes count position = .overflow := by
  unfold next
  rw [if_neg (Nat.not_le.mpr hp), if_pos hs]

theorem next_vector (hl : 0 < lanes) (hs : position + lanes < Size.limit) (h : position + lanes ≤ count) :
    next lanes count position = .chunk (.vector position (position + lanes)) := by
  have hp : ¬ count ≤ position := by omega
  unfold next
  rw [if_neg hp, if_neg (Nat.not_le.mpr hs), if_pos h]

theorem next_tail (hs : position + lanes < Size.limit) (hp : position < count)
    (h : count < position + lanes) : next lanes count position = .chunk (.tail position count) := by
  unfold next
  rw [if_neg (Nat.not_le.mpr hp), if_neg (Nat.not_le.mpr hs), if_neg (Nat.not_le.mpr h)]

/-! ## walks -/

theorem walk_eq : walk lanes count hl body position s =
    match next lanes count position with
    | .finished => (s, none)
    | .overflow => (s, some (.overflow "add"))
    | .chunk c =>
      match body c s with
      | (t, none) => walk lanes count hl body c.stop t
      | (t, some crash) => (t, some crash) := by
  rw [walk]
  split
  · rename_i h
    rw [h]
  · rename_i h
    rw [h]
  · rename_i c h
    exact h ▸ rfl

theorem walk_of_finished (h : next lanes count position = .finished) :
    walk lanes count hl body position s = (s, none) := by
  rw [walk_eq, h]

theorem walk_of_overflow (h : next lanes count position = .overflow) :
    walk lanes count hl body position s = (s, some (.overflow "add")) := by
  rw [walk_eq, h]

theorem walk_of_chunk (h : next lanes count position = .chunk c) (hb : body c s = (t, none)) :
    walk lanes count hl body position s = walk lanes count hl body c.stop t := by
  rw [walk_eq, h]
  dsimp only
  rw [hb]

theorem walk_of_crash {crash : Crash} (h : next lanes count position = .chunk c)
    (hb : body c s = (t, some crash)) : walk lanes count hl body position s = (t, some crash) := by
  rw [walk_eq, h]
  dsimp only
  rw [hb]

/-- Whole registers are walked one after the other, as far as a position is a size. -/
theorem walk_vectors (state : Nat → σ) {r : Nat} (hr : r * lanes ≤ count) (hs : r * lanes < Size.limit)
    (hb : ∀ q < r, body (.vector (q * lanes) ((q + 1) * lanes)) (state q) = (state (q + 1), none)) :
    walk lanes count hl body 0 (state 0) = walk lanes count hl body (r * lanes) (state r) := by
  induction r with
  | zero => rw [Nat.zero_mul]
  | succ r ih =>
    have hnext : (r + 1) * lanes = r * lanes + lanes := Nat.succ_mul r lanes
    rw [hnext] at hr hs
    have hlast := hb r (Nat.lt_succ_self r)
    rw [hnext] at hlast
    rw [ih (by omega) (by omega) fun q hq => hb q (Nat.lt_succ_of_lt hq),
      walk_of_chunk (next_vector hl hs hr) hlast, hnext]
    rfl

/-! ## the chunks of a range -/

/-- the chunk of that number -/
def nth (lanes count k : Nat) : Chunk :=
  if (k + 1) * lanes ≤ count then .vector (k * lanes) ((k + 1) * lanes) else .tail (k * lanes) count

def IsTail : Chunk → Prop
  | .vector .. => False
  | .tail .. => True

variable {k : Nat}

theorem nth_of_le (h : (k + 1) * lanes ≤ count) :
    nth lanes count k = .vector (k * lanes) ((k + 1) * lanes) := if_pos h

theorem nth_of_lt (h : count < (k + 1) * lanes) : nth lanes count k = .tail (k * lanes) count :=
  if_neg (Nat.not_le.mpr h)

theorem start_nth (lanes count k : Nat) : (nth lanes count k).start = k * lanes := by
  unfold nth
  split <;> rfl

theorem stop_nth (lanes count k : Nat) : (nth lanes count k).stop = min ((k + 1) * lanes) count := by
  rcases Nat.lt_or_ge count ((k + 1) * lanes) with h | h
  · rw [nth_of_lt h, Nat.min_eq_right (Nat.le_of_lt h)]
    rfl
  · rw [nth_of_le h, Nat.min_eq_left h]
    rfl

theorem isTail_nth : (nth lanes count k).IsTail ↔ count < (k + 1) * lanes := by
  rcases Nat.lt_or_ge count ((k + 1) * lanes) with h | h
  · rw [nth_of_lt h]
    exact iff_of_true trivial h
  · rw [nth_of_le h]
    exact iff_of_false id (Nat.not_lt.mpr h)

end Chunk

open Chunk

variable {lanes count : Nat}

/-- how many steps it takes to walk a number of elements -/
def steps (lanes count : Nat) : Nat := (count + lanes - 1) / lanes

theorem lt_steps_iff (hl : 0 < lanes) {k : Nat} : k < steps lanes count ↔ k * lanes < count := by
  have hle := Nat.le_div_iff_mul_le (x := k + 1) (y := count + lanes - 1) hl
  rw [Nat.succ_mul] at hle
  unfold steps
  omega

theorem steps_eq (hl : 0 < lanes) {r : Nat} (h : count ≤ r * lanes) (hr : r * lanes < count + lanes) :
    steps lanes count = r := by
  refine Nat.div_eq_of_lt_le (by omega) ?_
  rw [Nat.succ_mul]
  omega

/-- the first chunks of a range -/
def firstChunks (lanes count n : Nat) : List Chunk := (List.range n).map (nth lanes count)

theorem firstChunks_succ (lanes count n : Nat) :
    firstChunks lanes count (n + 1) = firstChunks lanes count n ++ [nth lanes count n] := by
  unfold firstChunks
  rw [List.range_succ, List.map_append]
  rfl

theorem length_firstChunks (lanes count n : Nat) : (firstChunks lanes count n).length = n := by
  unfold firstChunks
  rw [List.length_map, List.length_range]

/-- Walked whole, chunk by chunk, a range gives its chunks. -/
theorem chunks_of_walk {s : Style} {cs : List Chunk} {crash : Option Crash}
    (h : walk s.lanes count s.lanes_pos (fun c cs => (c :: cs, none)) 0 [] = (cs.reverse, crash)) :
    chunks s count = (cs, crash) := by
  unfold chunks
  rw [h]
  exact congrArg (·, crash) (List.reverse_reverse cs)

/-- The chunks come in their order, and all of them do unless the last step leaves the sizes. -/
theorem chunks_eq (s : Style) (hc : count < Size.limit) :
    chunks s count =
      if steps s.lanes count * s.lanes < Size.limit then
        (firstChunks s.lanes count (steps s.lanes count), none)
      else (firstChunks s.lanes count (count / s.lanes), some (.overflow "add")) := by
  have hl := s.lanes_pos
  have hle : count / s.lanes * s.lanes ≤ count := Nat.div_mul_le_self ..
  have hlt : count < count / s.lanes * s.lanes + s.lanes := Nat.lt_div_mul_add hl
  generalize count / s.lanes = q at hle hlt ⊢
  let body : Chunk → List Chunk → List Chunk × Option Crash := fun c cs => (c :: cs, none)
  let state : Nat → List Chunk := fun r => (firstChunks s.lanes count r).reverse
  have hpush (r : Nat) : body (nth s.lanes count r) (state r) = (state (r + 1), none) := by
    show (_, none) = ((firstChunks s.lanes count (r + 1)).reverse, none)
    rw [firstChunks_succ, List.reverse_append]
    rfl
  have hwalk : walk s.lanes count hl body 0 [] = walk s.lanes count hl body (q * s.lanes) (state q) := by
    refine walk_vectors state hle (Nat.lt_of_le_of_lt hle hc) fun r hr => ?_
    rw [← hpush r, nth_of_le (Nat.le_trans (Nat.mul_le_mul_right _ hr) hle)]
  rcases Nat.lt_or_eq_of_le hle with hmore | hall
  · have hnext : (q + 1) * s.lanes = q * s.lanes + s.lanes := Nat.succ_mul ..
    have hsteps : steps s.lanes count = q + 1 := steps_eq hl (by omega) (by omega)
    rw [hsteps, hnext]
    by_cases hfit : q * s.lanes + s.lanes < Size.limit
    · have htail := hpush q
      rw [nth_of_lt (hnext ▸ hlt)] at htail
      rw [if_pos hfit]
      exact chunks_of_walk (hwalk.trans ((walk_of_chunk (next_tail hfit hmore hlt) htail).trans
        (walk_of_finished (next_finished (Nat.le_refl _)))))
    · rw [if_neg hfit]
      exact chunks_of_walk (hwalk.trans (walk_of_overflow (next_overflow hmore (Nat.not_lt.mp hfit))))
  · rw [steps_eq hl (Nat.le_of_eq hall.symm) (by omega), if_pos (hall ▸ hc)]
    exact chunks_of_walk (hwalk.trans (walk_of_finished (next_finished (Nat.le_of_eq hall.symm))))

/-! ## a tiling -/

section
variable {n k : Nat} {c : Chunk}

theorem getElem?_firstChunks :
    (firstChunks lanes count n)[k]? = some c ↔ k < n ∧ nth lanes count k = c := by
  unfold firstChunks
  rw [List.getElem?_eq_some_iff]
  simp only [List.length_map, List.length_range, List.getElem_map, List.getElem_range, exists_prop]

theorem mem_firstChunks : c ∈ firstChunks lanes count n ↔ ∃ k < n, nth lanes count k = c := by
  unfold firstChunks
  simp only [List.mem_map, List.mem_range]

/-- Of different chunks one ends before the other begins. -/
theorem pairwise_firstChunks (lanes count n : Nat) :
    (firstChunks lanes count n).Pairwise (·.stop ≤ ·.start) := by
  unfold firstChunks
  rw [List.pairwise_map]
  refine List.pairwise_lt_range.imp fun {j k} h => ?_
  rw [stop_nth, start_nth]
  exact Nat.le_trans (Nat.min_le_left ..) (Nat.mul_le_mul_right lanes h)

/-- The steps of a walk reach every place of the range and no other. -/
theorem lt_iff_exists_firstChunks (hl : 0 < lanes) {i : Nat} :
    i < count ↔ ∃ c ∈ firstChunks lanes count (steps lanes count), c.start ≤ i ∧ i < c.stop := by
  simp only [mem_firstChunks]
  constructor
  · intro hi
    have hle : i / lanes * lanes ≤ i := Nat.div_mul_le_self ..
    have hlt : i < (i / lanes + 1) * lanes := by
      rw [Nat.succ_mul]
      exact Nat.lt_div_mul_add hl
    refine ⟨_, ⟨i / lanes, (lt_steps_iff hl).mpr (Nat.lt_of_le_of_lt hle hi), rfl⟩, ?_⟩
    rw [start_nth, stop_nth]
    exact ⟨hle, Nat.lt_min.mpr ⟨hlt, hi⟩⟩
  · rintro ⟨_, ⟨k, -, rfl⟩, -, hi⟩
    rw [stop_nth] at hi
    exact (Nat.lt_min.mp hi).2

/-- The lanes do not divide the count exactly if the last step is a tail. -/
theorem exists_tail_iff (hl : 0 < lanes) :
    (∃ c ∈ firstChunks lanes count (steps lanes count), c.IsTail) ↔ ¬ lanes ∣ count := by
  simp only [mem_firstChunks]
  constructor
  · rintro ⟨_, ⟨k, hk, rfl⟩, htail⟩ ⟨q, rfl⟩
    have hstart := (lt_steps_iff hl).mp hk
    rw [isTail_nth, Nat.mul_comm lanes] at htail
    rw [Nat.mul_comm lanes] at hstart
    have hnext : k + 1 ≤ q := Nat.lt_of_mul_lt_mul_right hstart
    exact Nat.not_le.mpr htail (Nat.mul_le_mul_right lanes hnext)
  · intro hn
    have hle : count / lanes * lanes ≤ count := Nat.div_mul_le_self ..
    have hne : count / lanes * lanes ≠ count := fun h => hn ⟨_, (Nat.mul_comm ..).trans h |>.symm⟩
    refine ⟨_, ⟨count / lanes, (lt_steps_iff hl).mpr (Nat.lt_of_le_of_ne hle hne), rfl⟩, ?_⟩
    rw [isTail_nth, Nat.succ_mul]
    exact Nat.lt_div_mul_add hl

end

end Kernel

end Offload
