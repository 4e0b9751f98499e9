import Offload.Kernel.LeadingZeros
import Offload.Kernel.Sum
import Offload.Proofs.Kernel.Chunk

/-!
# What lanewise kernels compute

A lanewise kernel carries its output over the chunks.  After any number of registers the first elements are
written and the others are as they were; so how the elements are cut into chunks does not show in what is
written.  The shortest slice decides how far a kernel comes.

* `front`              an output of which the first elements are written (`set_front`, `toList_front`);
* `fill_front`         the loop of a register or of a tail writes the next elements of it;
* `Chunk.Fills`        a loop over chunks that does so with every chunk, up to the end of the shortest slice;
* `Fills.walk_of_le`, `Fills.walk_of_lt`  a walk that comes to its end, and one that does not;
* `fills_sum`, `fills_count`  the loops of the two kernels;
* `shortest`, `reach`  the length of the shortest slice, and how many elements are written then;
* `Lanewise`           a kernel that computes its elements so, on slices of any lengths;
* `lanewise_sumBy`, `lanewise_leadingZeros`  the two kernels do;
* `arityOutcome`       what comes of slices that are long enough.
-/

namespace Offload

namespace Kernel

/-! ## what is written so far -/

section
variable {α : Type} {n w : Nat} {vs : List α} {out : Vector α n}

/-- an output of which the first elements are written -/
def front (vs : List α) (out : Vector α n) (w : Nat) : Vector α n :=
  .ofFn fun j => if j.val < w then vs.getD j.val (out.get j) else out.get j

theorem front_zero (vs : List α) (out : Vector α n) : front vs out 0 = out := by
  refine Vector.ext fun j hj => ?_
  unfold front
  rw [Vector.getElem_ofFn, if_neg (Nat.not_lt_zero j)]
  rfl

/-- To write the next element leaves one more of them written. -/
theorem set_front (h : w < n) (hv : w < vs.length) :
    (front vs out w).set w vs[w] h = front vs out (w + 1) := by
  refine Vector.ext fun j hj => ?_
  unfold front
  rw [Vector.getElem_set, Vector.getElem_ofFn, Vector.getElem_ofFn]
  by_cases hjw : w = j
  · subst hjw
    rw [if_pos rfl, if_pos (Nat.lt_succ_self w), List.getD_eq_getElem?_getD, List.getElem?_eq_getElem hv]
    rfl
  · have hlt : j < w + 1 ↔ j < w := by omega
    simp only [if_neg hjw, hlt]

theorem toList_front (hn : w ≤ n) (hv : w ≤ vs.length) :
    (front vs out w).toList = vs.take w ++ out.toList.drop w := by
  have hlen : (vs.take w).length = w := (List.length_take ..).trans (Nat.min_eq_left hv)
  refine List.ext_getElem ?_ fun j hj _ => ?_
  · rw [List.length_append, hlen, List.length_drop, Vector.length_toList, Vector.length_toList]
    omega
  · rw [Vector.getElem_toList, List.getElem_append]
    unfold front
    rw [Vector.getElem_ofFn]
    by_cases hjw : j < w
    · rw [if_pos hjw, dif_pos (Nat.lt_of_lt_of_eq hjw hlen.symm), List.getElem_take,
        List.getD_eq_getElem?_getD, List.getElem?_eq_getElem (Nat.lt_of_lt_of_le hjw hv)]
      rfl
    · have hsum : w + (j - w) = j := by omega
      rw [if_neg hjw, dif_neg fun h => hjw (Nat.lt_of_lt_of_eq h hlen), List.getElem_drop,
        Vector.getElem_toList]
      simp only [hlen, hsum]
      rfl

end

/-- The loop over some places of a part, of which `m` can be computed and written, writes the next elements
up to the end of these. -/
theorem fill_front {o : Element} {n m : Nat} {vs : List (Lane o)} {out : Vector (Lane o) n} {p : Part n}
    {compute : Nat → Except Crash (Lane o)} (hm : m ≤ p.length) (hv : p.start + m ≤ vs.length)
    (hc : ∀ i (h : p.start + i < vs.length), i < m → compute i = .ok vs[p.start + i])
    (hend : m < p.length → ∃ c, compute m = .error c) (left : Nat) {i : Nat} (hi : i ≤ m) :
    ∃ crash : Option Crash,
      fill p compute left i (front vs out (p.start + i)) =
        (front vs out (p.start + min (i + left) m), crash) ∧ (crash = none ↔ i + left ≤ m) := by
  induction left generalizing i with
  | zero => exact ⟨none, by rw [Nat.add_zero, Nat.min_eq_left hi]; rfl, iff_of_true rfl hi⟩
  | succ left ih =>
    rw [fill]
    rcases Nat.lt_or_eq_of_le hi with hlt | rfl
    · have hp : i < p.length := Nat.lt_of_lt_of_le hlt hm
      have hvs : p.start + i < vs.length := by omega
      have hnext : i + (left + 1) = i + 1 + left := by omega
      rw [hc i hvs hlt, hnext]
      dsimp only
      rw [dif_pos hp, set_front (Part.add_lt hp) hvs]
      exact ih hlt
    · have hstop : min (i + (left + 1)) i = i := Nat.min_eq_right (Nat.le_add_right ..)
      have hover : ¬ i + (left + 1) ≤ i := by omega
      rw [hstop]
      cases hcompute : compute i with
      | error c => exact ⟨some c, rfl, iff_of_false nofun hover⟩
      | ok y =>
        -- what is computed here has no place to stand
        have hp : ¬ i < p.length := fun hlt => by
          obtain ⟨c, hcrash⟩ := hend hlt
          cases hcompute.symm.trans hcrash
        dsimp only
        rw [dif_neg hp]
        exact ⟨_, rfl, iff_of_false nofun hover⟩

section
variable {o : Element} {n : Nat} {vs : List (Lane o)} {out : Vector (Lane o) n}
  {compute : Nat → Except Crash (Lane o)} {start : Nat}

/-- A register that is there as a whole is written as a whole. -/
theorem fill_register {lanes : Nat} (hn : start + lanes ≤ n) (hv : start + lanes ≤ vs.length)
    (hc : ∀ i (h : start + i < vs.length), i < lanes → compute i = .ok vs[start + i]) :
    fill ⟨start, start + lanes, hn⟩ compute lanes 0 (front vs out start) =
      (front vs out (start + lanes), none) := by
  let p : Part n := ⟨start, start + lanes, hn⟩
  have hp : p.length = lanes := Nat.add_sub_cancel_left start lanes
  obtain ⟨crash, hfill, hcrash⟩ : ∃ crash : Option Crash,
      fill p compute lanes 0 (front vs out start) = (front vs out (start + min (0 + lanes) lanes), crash) ∧
        (crash = none ↔ 0 + lanes ≤ lanes) :=
    fill_front (Nat.le_of_eq hp.symm) hv hc (fun hlt => absurd hlt (by omega)) lanes (Nat.zero_le lanes)
  rw [Nat.zero_add] at hfill hcrash
  rw [hcrash.mpr (Nat.le_refl lanes), Nat.min_self] at hfill
  exact hfill

/-- A tail is written up to the end of the shortest slice. -/
theorem fill_tail {m stop : Nat} (hm : m = min n vs.length) (hstart : start ≤ m) (hle : start ≤ stop)
    (hc : ∀ i (h : i < vs.length), compute i = .ok vs[i]) (hend : m < n → ∃ c, compute m = .error c) :
    ∃ crash : Option Crash,
      fill (.whole n) compute (stop - start) start (front vs out start) =
        (front vs out (min stop m), crash) ∧ (crash = none ↔ stop ≤ m) := by
  have hp : (Part.whole n).length = n := Nat.sub_zero n
  have hzero (i : Nat) : (Part.whole n).start + i = i := Nat.zero_add i
  have hwhole : ∃ crash : Option Crash,
      fill (.whole n) compute (stop - start) start (front vs out ((Part.whole n).start + start)) =
        (front vs out ((Part.whole n).start + min (start + (stop - start)) m), crash) ∧
          (crash = none ↔ start + (stop - start) ≤ m) := by
    refine fill_front ?_ ?_ (fun i h _ => ?_) ?_ (stop - start) hstart
    · omega
    · rw [hzero]
      omega
    · simp only [hzero] at h ⊢
      exact hc i h
    · rw [hp]
      exact hend
  rw [hzero, hzero, Nat.add_sub_cancel' hle] at hwhole
  exact hwhole

end

/-! ## loops over chunks -/

/-- How many elements are written where the shortest slice has `m`: all that are asked for, or else the
whole registers that there are, and of a tail all elements that there are. -/
def reach (lanes m count : Nat) : Nat :=
  if count ≤ m then count
  else if count < m / lanes * lanes + lanes then m
  else m / lanes * lanes

theorem reach_of_le {lanes m count : Nat} (h : count ≤ m) : reach lanes m count = count := if_pos h

theorem reach_le (lanes m count : Nat) : reach lanes m count ≤ m := by
  unfold reach
  split
  · assumption
  · split
    · exact Nat.le_refl m
    · exact Nat.div_mul_le_self m lanes

namespace Chunk

variable {σ : Type}

/-- A loop that does with every chunk what it is there for, where all slices have `m` elements: `state w r`
is the state with `w` elements written and `r` registers done.  A register that is not there as a whole is
not written at all; of a tail all elements are written that there are. -/
structure Fills (lanes m : Nat) (body : Chunk → σ → σ × Option Crash) (state : Nat → Nat → σ) : Prop where
  vector : ∀ {start r : Nat}, start + lanes ≤ m →
    body (.vector start (start + lanes)) (state start r) = (state (start + lanes) (r + 1), none)
  short : ∀ {start r : Nat}, m < start + lanes → ∃ crash r',
    body (.vector start (start + lanes)) (state start r) = (state start r', some crash)
  tail : ∀ {start stop r : Nat}, start ≤ m → start ≤ stop → ∃ crash : Option Crash,
    body (.tail start stop) (state start r) = (state (min stop m) r, crash) ∧ (crash = none ↔ stop ≤ m)

namespace Fills

variable {lanes m count : Nat} {hl : 0 < lanes} {body : Chunk → σ → σ × Option Crash} {state : Nat → Nat → σ}

/-- As long as there are whole registers everywhere, a multiple of the lanes is written. -/
theorem walk_vectors (h : Fills lanes m body state) {q : Nat} (hq : q * lanes ≤ count) (hm : q * lanes ≤ m)
    (hs : q * lanes < Size.limit) :
    walk lanes count hl body 0 (state 0 0) = walk lanes count hl body (q * lanes) (state (q * lanes) q) := by
  let reached : Nat → σ := fun r => state (r * lanes) r
  have hzero : reached 0 = state 0 0 := congrArg (state · 0) (Nat.zero_mul lanes)
  rw [← hzero]
  refine Chunk.walk_vectors reached hq hs fun r hr => ?_
  have hnext : (r + 1) * lanes = r * lanes + lanes := Nat.succ_mul r lanes
  have hle : r * lanes + lanes ≤ m := hnext ▸ Nat.le_trans (Nat.mul_le_mul_right lanes hr) hm
  show body (.vector (r * lanes) ((r + 1) * lanes)) (state (r * lanes) r) =
    (state ((r + 1) * lanes) (r + 1), none)
  rw [hnext]
  exact h.vector hle

/-- With as many elements as are asked for the walk comes to its end. -/
theorem walk_of_le (h : Fills lanes m body state) (hm : count ≤ m) (hlimit : count + lanes ≤ Size.limit) :
    walk lanes count hl body 0 (state 0 0) = (state count (count / lanes), none) := by
  have hle : count / lanes * lanes ≤ count := Nat.div_mul_le_self ..
  have hlt : count < count / lanes * lanes + lanes := Nat.lt_div_mul_add hl
  generalize count / lanes = q at hle hlt ⊢
  rw [h.walk_vectors hle (Nat.le_trans hle hm) (by omega)]
  rcases Nat.lt_or_eq_of_le hle with hmore | hall
  · obtain ⟨crash, htail, hcrash⟩ := h.tail (r := q) (Nat.le_trans hle hm) hle
    rw [hcrash.mpr hm, Nat.min_eq_left hm] at htail
    rw [walk_of_chunk (next_tail (by omega) hmore hlt) htail]
    exact walk_of_finished (next_finished (Nat.le_refl _))
  · rw [walk_of_finished (next_finished (Nat.le_of_eq hall.symm)), hall]

/-- With fewer elements it crashes at the first register or element that is not there. -/
theorem walk_of_lt (h : Fills lanes m body state) (hm : m < count) (hlimit : m + lanes < Size.limit) :
    ∃ crash r, walk lanes count hl body 0 (state 0 0) = (state (reach lanes m count) r, some crash) := by
  unfold reach
  rw [if_neg (Nat.not_le.mpr hm)]
  have hle : m / lanes * lanes ≤ m := Nat.div_mul_le_self ..
  have hlt : m < m / lanes * lanes + lanes := Nat.lt_div_mul_add hl
  generalize m / lanes = q at hle hlt ⊢
  have hmore : q * lanes < count := Nat.lt_of_le_of_lt hle hm
  have hsize : q * lanes + lanes < Size.limit := by omega
  rw [h.walk_vectors (Nat.le_of_lt hmore) hle (by omega)]
  by_cases hshort : count < q * lanes + lanes
  · obtain ⟨crash, htail, hcrash⟩ := h.tail (r := q) hle (Nat.le_of_lt hmore)
    rw [Nat.min_eq_right (Nat.le_of_lt hm)] at htail
    rw [if_pos hshort]
    cases crash with
    | none => exact absurd (hcrash.mp rfl) (Nat.not_le.mpr hm)
    | some crash => exact ⟨crash, q, walk_of_crash (next_tail hsize hmore hshort) htail⟩
  · obtain ⟨crash, r, hvector⟩ := h.short (r := q) hlt
    rw [if_neg hshort]
    exact ⟨crash, r, walk_of_crash (next_vector hl hsize (Nat.not_lt.mp hshort)) hvector⟩

end Fills

end Chunk

/-! ## parts -/

section
variable {α : Type} {n start stop : Nat}

theorem between_of_le (h : stop ≤ n) : Part.between n start stop = .ok ⟨start, stop, h⟩ := dif_pos h

theorem between_of_lt (h : n < stop) : Part.between n start stop = .error (.rangeEnd stop n) :=
  dif_neg (Nat.not_le.mpr h)

theorem get_of_lt {xs : List α} {p : Part xs.length} {i : Nat} (hx : p.start + i < xs.length)
    (h : i < p.length) : p.get (Slice.vector xs) i = .ok xs[p.start + i] := dif_pos h

theorem get_of_le {p : Part n} {xs : Vector α n} {i : Nat} (h : p.length ≤ i) :
    p.get xs i = .error (.index i p.length) := dif_neg (Nat.not_lt.mpr h)

theorem length_whole (n : Nat) : (Part.whole n).length = n := Nat.sub_zero n

theorem length_register (lanes : Nat) (h : start + lanes ≤ n) :
    (Part.mk start (start + lanes) h).length = lanes := Nat.add_sub_cancel_left start lanes

end

/-! ## the loop of the sum -/

section
variable {e : Element} {n : Nat} (add : Lane e → Lane e → Lane e) (xs ys : List (Lane e))

theorem sumAt_eq {a : Part xs.length} {b : Part ys.length} {start i : Nat} (ha : a.start = start)
    (hb : b.start = start) (hv : start + i < (List.zipWith add xs ys).length) (hia : i < a.length)
    (hib : i < b.length) :
    sumAt add (Slice.vector xs) (Slice.vector ys) a b i = .ok (List.zipWith add xs ys)[start + i] := by
  subst ha
  have hx : a.start + i < xs.length := Part.add_lt hia
  have hy : b.start + i < ys.length := Part.add_lt hib
  unfold sumAt
  rw [get_of_lt hx hia, get_of_lt hy hib, List.getElem_zipWith]
  simp only [hb]
  rfl

/-- At the end of the shorter input there is nothing to add. -/
theorem sumAt_end {m : Nat} (hm : m = min xs.length ys.length) :
    ∃ c, sumAt add (Slice.vector xs) (Slice.vector ys) (.whole _) (.whole _) m = .error c := by
  unfold sumAt
  rcases Nat.lt_or_ge m xs.length with hx | hx
  · have hy : ys.length ≤ m := by omega
    rw [get_of_lt (p := .whole _) ((Nat.zero_add m).symm ▸ hx) hx, get_of_le hy]
    exact ⟨_, rfl⟩
  · rw [get_of_le hx]
    exact ⟨_, rfl⟩

theorem fills_sum (out : Vector (Lane e) n) (lanes : Nat) :
    Chunk.Fills lanes (min n (min xs.length ys.length))
      (sumChunk add (Slice.vector xs) (Slice.vector ys) lanes)
      fun w _ => front (List.zipWith add xs ys) out w := by
  have hv : (List.zipWith add xs ys).length = min xs.length ys.length := List.length_zipWith
  refine ⟨fun {start r} h => ?_, fun {start r} h => ?_, fun {start stop r} h hle => ?_⟩
  · have hn : start + lanes ≤ n := by omega
    have hx : start + lanes ≤ xs.length := by omega
    have hy : start + lanes ≤ ys.length := by omega
    have hparts : sumParts n xs.length ys.length start (start + lanes) =
        .ok (⟨start, start + lanes, hn⟩, ⟨start, start + lanes, hx⟩, ⟨start, start + lanes, hy⟩) := by
      unfold sumParts
      rw [between_of_le hn, between_of_le hx, between_of_le hy]
      rfl
    unfold sumChunk
    dsimp only
    rw [hparts]
    refine fill_register hn (by omega) fun i hi hlt => sumAt_eq add xs ys rfl rfl hi ?_ ?_
    · rw [length_register]
      exact hlt
    · rw [length_register]
      exact hlt
  · obtain ⟨c, hparts⟩ : ∃ c, sumParts n xs.length ys.length start (start + lanes) = .error c := by
      unfold sumParts
      rcases Nat.lt_or_ge n (start + lanes) with hn | hn
      · exact ⟨_, by rw [between_of_lt hn]; rfl⟩
      rcases Nat.lt_or_ge xs.length (start + lanes) with hx | hx
      · exact ⟨_, by rw [between_of_le hn, between_of_lt hx]; rfl⟩
      · have hy : ys.length < start + lanes := by omega
        exact ⟨_, by rw [between_of_le hn, between_of_le hx, between_of_lt hy]; rfl⟩
    unfold sumChunk
    dsimp only
    rw [hparts]
    exact ⟨c, r, rfl⟩
  · refine fill_tail (by rw [hv]) h hle (fun i hi => ?_) fun hlt => sumAt_end add xs ys (by omega)
    have hx : i < (Part.whole xs.length).length := by rw [length_whole]; omega
    have hy : i < (Part.whole ys.length).length := by rw [length_whole]; omega
    have hzero : 0 + i < (List.zipWith add xs ys).length := (Nat.zero_add i).symm ▸ hi
    have hsum : sumAt add (Slice.vector xs) (Slice.vector ys) (.whole _) (.whole _) i =
        .ok (List.zipWith add xs ys)[0 + i] := sumAt_eq add xs ys rfl rfl hzero hx hy
    simp only [Nat.zero_add] at hsum
    exact hsum

end

/-! ## the loop of the count -/

section
variable {n : Nat}

/-- A register and the part of the input beside it are of one length, and the loop comes to its end. -/
theorem inStep_front {i o : Element} (f : Lane i → Lane o) (xs : List (Lane i)) (out : Vector (Lane o) n)
    {p : Part n} {q : Part xs.length} (hs : q.start = p.start) (hl : q.length = p.length) (left : Nat) {j : Nat}
    (hj : j + left = p.length) :
    inStep f p q (Slice.vector xs) left j (front (xs.map f) out (p.start + j)) =
      front (xs.map f) out (p.start + p.length) := by
  induction left generalizing j with
  | zero => rw [← hj]; rfl
  | succ left ih =>
    have hp : j < p.length := by omega
    have hq : j < q.length := hl ▸ hp
    have hx : p.start + j < xs.length := hs ▸ Part.add_lt hq
    have hv : p.start + j < (xs.map f).length := by rw [List.length_map]; exact hx
    have hread : f ((Slice.vector xs).get ⟨q.start + j, Part.add_lt hq⟩) = (xs.map f)[p.start + j] := by
      rw [List.getElem_map]
      simp only [hs]
      rfl
    rw [inStep, dif_pos hp, dif_pos hq, hread, set_front (Part.add_lt hp) hv]
    exact ih (by omega)

theorem fills_count (xs : List (Lane .u32)) (out : Vector (Lane .u32) n) (lanes : Nat) :
    Chunk.Fills lanes (min n xs.length) (countChunk (Slice.vector xs))
      fun w r => (front (xs.map countZeros) out w, r) := by
  have hv : (xs.map countZeros).length = xs.length := List.length_map _
  refine ⟨fun {start r} h => ?_, fun {start r} h => ?_, fun {start stop r} h hle => ?_⟩
  · have hn : start + lanes ≤ n := by omega
    have hx : start + lanes ≤ xs.length := by omega
    have hparts : countParts n xs.length start (start + lanes) =
        .ok (⟨start, start + lanes, hn⟩, ⟨start, start + lanes, hx⟩) := by
      unfold countParts
      rw [between_of_le hn, between_of_le hx]
      rfl
    unfold countChunk
    dsimp only
    rw [hparts]
    dsimp only
    have hloop := inStep_front countZeros xs out (p := ⟨start, start + lanes, hn⟩)
      (q := ⟨start, start + lanes, hx⟩) rfl rfl _ (Nat.zero_add _)
    rw [length_register] at hloop ⊢
    exact congrArg (fun v => ((v, r + 1), none)) hloop
  · obtain ⟨c, hparts⟩ : ∃ c, countParts n xs.length start (start + lanes) = .error c := by
      unfold countParts
      rcases Nat.lt_or_ge n (start + lanes) with hn | hn
      · exact ⟨_, by rw [between_of_lt hn]; rfl⟩
      · have hx : xs.length < start + lanes := by omega
        exact ⟨_, by rw [between_of_le hn, between_of_lt hx]; rfl⟩
    unfold countChunk
    dsimp only
    rw [hparts]
    exact ⟨c, r + 1, rfl⟩
  · let compute (i : Nat) : Except Crash (Lane .u32) :=
      ((Part.whole xs.length).get (Slice.vector xs) i).map countZeros
    have hc (i : Nat) (hi : i < (xs.map countZeros).length) : compute i = .ok (xs.map countZeros)[i] := by
      have hx : i < xs.length := hv ▸ hi
      have hzero : (Part.whole xs.length).start + i < xs.length := (Nat.zero_add i).symm ▸ hx
      show ((Part.whole xs.length).get (Slice.vector xs) i).map countZeros = _
      rw [get_of_lt hzero hx, List.getElem_map]
      simp only [Part.whole, Nat.zero_add]
      rfl
    have hend (hlt : min n xs.length < n) : ∃ c, compute (min n xs.length) = .error c := by
      have hx : (Part.whole xs.length).length ≤ min n xs.length := by rw [length_whole]; omega
      show ∃ c, ((Part.whole xs.length).get (Slice.vector xs) (min n xs.length)).map countZeros = .error c
      rw [get_of_le hx]
      exact ⟨_, rfl⟩
    obtain ⟨crash, hfill, hcrash⟩ : ∃ crash : Option Crash,
        fill (.whole n) compute (stop - start) start (front (xs.map countZeros) out start) =
          (front (xs.map countZeros) out (min stop (min n xs.length)), crash) ∧
            (crash = none ↔ stop ≤ min n xs.length) :=
      fill_tail (by rw [hv]) h hle hc hend
    unfold countChunk
    dsimp only
    rw [hfill]
    exact ⟨crash, rfl, hcrash⟩

end

/-! ## kernels -/

section
variable {output : Nat} {inputs : List Nat}

/-- the length of the shortest slice -/
def shortest (output : Nat) (inputs : List Nat) : Nat := inputs.foldr min output

theorem le_shortest {n : Nat} : n ≤ shortest output inputs ↔ ∀ len ∈ output :: inputs, n ≤ len := by
  unfold shortest
  induction inputs with
  | nil => simp
  | cons len inputs ih =>
    rw [List.foldr_cons, Nat.le_min, ih, List.forall_mem_cons, List.forall_mem_cons, List.forall_mem_cons,
      and_left_comm]

end

/-- What a walk leaves of an output: as many elements as are asked for, or those in front of the crash. -/
theorem walked_of_fills {σ : Type} {o : Element} {s : Style} {m count : Nat} {vs output : List (Lane o)}
    {body : Chunk → σ → σ × Option Crash} {state : Nat → Nat → σ}
    (written : σ → Vector (Lane o) output.length) (note : σ → List Trace.Note) (h : Chunk.Fills s.lanes m body state) (hm : m = min output.length vs.length)
    (hw : ∀ w r, written (state w r) = front vs (Slice.vector output) w) :
    let done := Chunk.walk s.lanes count s.lanes_pos body 0 (state 0 0)
    let run := Run.walked (written done.1) done.2 (note done.1)
    let p := reach s.lanes m count
    (count ≤ m → count + s.lanes ≤ Size.limit → run =
      ⟨vs.take count ++ output.drop count, .ok (), note (state count (count / s.lanes))⟩) ∧
    (m < count → m + s.lanes < Size.limit →
      ∃ crash, run = ⟨vs.take p ++ output.drop p, .error (.crash crash), []⟩) := by
  intro done run p
  have hlist {w : Nat} (r : Nat) (hle : w ≤ m) :
      (written (state w r)).toList = vs.take w ++ output.drop w := by
    rw [hw]
    exact toList_front (by omega) (by omega)
  constructor
  · intro hle hlimit
    have hdone : done = (state count (count / s.lanes), none) := h.walk_of_le hle hlimit
    show Run.walked (written done.1) done.2 (note done.1) = _
    rw [hdone, ← hlist _ hle]
    rfl
  · intro hlt hlimit
    obtain ⟨crash, r, hdone⟩ : ∃ crash r, done = (state p r, some crash) := h.walk_of_lt hlt hlimit
    refine ⟨crash, ?_⟩
    show Run.walked (written done.1) done.2 (note done.1) = _
    rw [hdone, ← hlist r (reach_le ..)]
    rfl

/-- A kernel that takes a number of inputs and computes its output from the front; `value` is all that the
inputs give.  With as many elements as are asked for it computes them; else it crashes, and what it wrote
before that stays. -/
structure Lanewise (k : Kernel) (arity : Nat) (value : List (List (Lane k.input)) → List (Lane k.output))
    (remarks : Style → Nat → List Trace.Note) : Prop where
  refused : ∀ {s : Style} {out ins count}, ins.length ≠ arity →
    k.apply s out ins count = .refused k.name arity ins.length out
  whole : ∀ {s : Style} {out ins count}, ins.length = arity →
    count ≤ shortest out.length (ins.map List.length) → count + s.lanes ≤ Size.limit →
      k.apply s out ins count = ⟨(value ins).take count ++ out.drop count, .ok (), remarks s count⟩
  short : ∀ {s : Style} {out ins count}, ins.length = arity →
    shortest out.length (ins.map List.length) < count →
    shortest out.length (ins.map List.length) + s.lanes < Size.limit →
      let p := reach s.lanes (shortest out.length (ins.map List.length)) count
      ∃ crash, k.apply s out ins count = ⟨(value ins).take p ++ out.drop p, .error (.crash crash), []⟩
  /-- Elements behind those that are asked for do not matter. -/
  value_take : ∀ ins count, (value (ins.map (·.take count))).take count = (value ins).take count

/-- all sums of two inputs -/
def sums {e : Element} (add : Lane e → Lane e → Lane e) : List (List (Lane e)) → List (Lane e)
  | [xs, ys] => List.zipWith add xs ys
  | _ => []

/-- all counts for one input -/
def counts : List (List (Lane .u32)) → List (Lane .u32)
  | [xs] => xs.map countZeros
  | _ => []

theorem sums_take {e : Element} (add : Lane e → Lane e → Lane e) (ins : List (List (Lane e))) (count : Nat) :
    (sums add (ins.map (·.take count))).take count = (sums add ins).take count := by
  match ins with
  | [] | [_] | _ :: _ :: _ :: _ => rfl
  | [xs, ys] =>
    show (List.zipWith add (xs.take count) (ys.take count)).take count = (List.zipWith add xs ys).take count
    rw [← List.take_zipWith, List.take_take, Nat.min_self]

theorem counts_take (ins : List (List (Lane .u32))) (count : Nat) :
    (counts (ins.map (·.take count))).take count = (counts ins).take count := by
  match ins with
  | [] | _ :: _ :: _ => rfl
  | [xs] =>
    show ((xs.take count).map countZeros).take count = (xs.map countZeros).take count
    rw [List.map_take, List.take_take, Nat.min_self]

theorem shortest_pair (output x y : Nat) : shortest output [x, y] = min output (min x y) := by
  show min x (min y output) = _
  omega

theorem shortest_single (output x : Nat) : shortest output [x] = min output x := Nat.min_comm x output

section
variable {s : Style} {count : Nat}

theorem apply_sumBy {e : Element} (add : Lane e → Lane e → Lane e) (out xs ys : List (Lane e)) :
    let m := shortest out.length [xs.length, ys.length]
    let p := reach s.lanes m count
    (count ≤ m → count + s.lanes ≤ Size.limit → (sumBy e add).apply s out [xs, ys] count =
      ⟨(sums add [xs, ys]).take count ++ out.drop count, .ok (), []⟩) ∧
    (m < count → m + s.lanes < Size.limit → ∃ crash, (sumBy e add).apply s out [xs, ys] count =
      ⟨(sums add [xs, ys]).take p ++ out.drop p, .error (.crash crash), []⟩) := by
  have hlen : (sums add [xs, ys]).length = min xs.length ys.length := List.length_zipWith
  have hfills := fills_sum add xs ys (Slice.vector out) s.lanes
  have hstart : (sumBy e add).apply s out [xs, ys] count =
      let done := Chunk.walk s.lanes count s.lanes_pos
        (sumChunk add (Slice.vector xs) (Slice.vector ys) s.lanes) 0
        (front (List.zipWith add xs ys) (Slice.vector out) 0)
      .walked done.1 done.2 [] := by
    rw [front_zero]
    rfl
  rw [shortest_pair, hstart]
  exact walked_of_fills id (fun _ => []) hfills (by rw [hlen]) fun _ _ => rfl

theorem apply_leadingZeros (out xs : List (Lane .u32)) :
    let m := shortest out.length [xs.length]
    let p := reach s.lanes m count
    (count ≤ m → count + s.lanes ≤ Size.limit → leadingZeros.apply s out [xs] count =
      ⟨(counts [xs]).take count ++ out.drop count, .ok (), [countRemark s (count / s.lanes) count]⟩) ∧
    (m < count → m + s.lanes < Size.limit → ∃ crash, leadingZeros.apply s out [xs] count =
      ⟨(counts [xs]).take p ++ out.drop p, .error (.crash crash), []⟩) := by
  have hlen : (counts [xs]).length = xs.length := List.length_map _
  have hfills := fills_count xs (Slice.vector out) s.lanes
  have hstart : leadingZeros.apply s out [xs] count =
      let done := Chunk.walk s.lanes count s.lanes_pos (countChunk (Slice.vector xs)) 0
        (front (xs.map countZeros) (Slice.vector out) 0, 0)
      .walked done.1.1 done.2 [countRemark s done.1.2 count] := by
    rw [front_zero]
    rfl
  rw [shortest_single, hstart]
  exact walked_of_fills Prod.fst (fun t => [countRemark s t.2 count]) hfills (by rw [hlen]) fun _ _ => rfl

end

theorem lanewise_sumBy (e : Element) (add : Lane e → Lane e → Lane e) :
    (sumBy e add).Lanewise 2 (sums add) fun _ _ => [] where
  refused {s out ins count} ha := by
    match ins with
    | [] | [_] | _ :: _ :: _ :: _ => rfl
    | [_, _] => exact absurd rfl ha
  whole {s out ins count} ha := by
    match ins, ha with
    | [xs, ys], _ => exact (apply_sumBy add out xs ys).1
  short {s out ins count} ha := by
    match ins, ha with
    | [xs, ys], _ => exact (apply_sumBy add out xs ys).2
  value_take := sums_take add

theorem lanewise_leadingZeros :
    leadingZeros.Lanewise 1 counts fun s count => [countRemark s (count / s.lanes) count] where
  refused {s out ins count} ha := by
    match ins with
    | [] | _ :: _ :: _ => rfl
    | [_] => exact absurd rfl ha
  whole {s out ins count} ha := by
    match ins, ha with
    | [xs], _ => exact (apply_leadingZeros out xs).1
  short {s out ins count} ha := by
    match ins, ha with
    | [xs], _ => exact (apply_leadingZeros out xs).2
  value_take := counts_take

/-- what a kernel says of the number of its inputs -/
def arityOutcome (name : String) (arity inputs : Nat) : Outcome Unit :=
  if inputs = arity then .ok ()
  else .error (.error (.kernel name s!"expected {inputWords arity}, got {inputs}"))

/-- what is left of an output that is long enough -/
def finalOutput {i o : Element} (arity : Nat) (value : List (List (Lane i)) → List (Lane o))
    (output : List (Lane o)) (inputs : List (List (Lane i))) (count : Nat) : List (Lane o) :=
  if inputs.length = arity then (value inputs).take count ++ output.drop count else output

namespace Lanewise

variable {k : Kernel} {arity count : Nat} {value : List (List (Lane k.input)) → List (Lane k.output)}
  {remarks : Style → Nat → List Trace.Note} {s : Style} {out : List (Lane k.output)}
  {ins : List (List (Lane k.input))} (h : k.Lanewise arity value remarks)
include h

/-- On slices that are long enough every element that is asked for is computed, and no other. -/
theorem apply_of_le (ho : count ≤ out.length) (hi : ∀ xs ∈ ins, count ≤ xs.length)
    (hlimit : count + s.lanes ≤ Size.limit) :
    (k.apply s out ins count).outcome = arityOutcome k.name arity ins.length ∧
      (k.apply s out ins count).output = finalOutput arity value out ins count := by
  have hall : count ≤ shortest out.length (ins.map List.length) :=
    le_shortest.mpr (List.forall_mem_cons.mpr ⟨ho, List.forall_mem_map.mpr hi⟩)
  unfold arityOutcome finalOutput
  by_cases ha : ins.length = arity
  · rw [if_pos ha, if_pos ha, h.whole ha hall hlimit]
    exact ⟨rfl, rfl⟩
  · rw [if_neg ha, if_neg ha, h.refused ha]
    exact ⟨rfl, rfl⟩

/-- The first elements alone give the first elements. -/
theorem finalOutput_take (out : List (Lane k.output)) (ins : List (List (Lane k.input))) (count : Nat) :
    finalOutput arity value (out.take count) (ins.map (·.take count)) count ++ out.drop count =
      finalOutput arity value out ins count := by
  unfold finalOutput
  rw [List.length_map, h.value_take]
  by_cases ha : ins.length = arity
  · rw [if_pos ha, if_pos ha, List.drop_take_self, List.append_nil]
  · rw [if_neg ha, if_neg ha, List.take_append_drop]

/-- What is reached is computed, all else stays; and the kernel comes to its end exactly if all slices are
long enough. -/
theorem apply_reach (hs : s.width < Size.limit) (ha : ins.length = arity)
    (ho : out.length < Block.layoutLimit) :
    let m := shortest out.length (ins.map (·.length))
    let p := reach s.lanes m count
    let r := k.apply s out ins count
    r.output = (value ins).take p ++ out.drop p ∧ (count ≤ m → r.outcome = .ok ()) ∧
      (m < count → ∃ crash, r.outcome = .error (.crash crash)) := by
  intro m p r
  have hm : m ≤ out.length := le_shortest.mp (Nat.le_refl m) _ List.mem_cons_self
  have hlimit : m + s.lanes < Size.limit := Style.add_lanes_lt hs (Nat.lt_of_le_of_lt hm ho)
  rcases Nat.lt_or_ge m count with hlt | hle
  · obtain ⟨crash, hr⟩ : ∃ crash, r = ⟨(value ins).take p ++ out.drop p, .error (.crash crash), []⟩ :=
      h.short ha hlt hlimit
    rw [hr]
    exact ⟨rfl, fun hle => absurd hlt (Nat.not_lt.mpr hle), fun _ => ⟨crash, rfl⟩⟩
  · have hr : r = ⟨(value ins).take count ++ out.drop count, .ok (), remarks s count⟩ :=
      h.whole ha hle (by omega)
    have hp : p = count := reach_of_le hle
    rw [hr, hp]
    exact ⟨rfl, fun _ => rfl, fun hlt => absurd hlt (Nat.not_lt.mpr hle)⟩

end Lanewise

end Kernel

end Offload
