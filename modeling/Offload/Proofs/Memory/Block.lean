import Offload.Memory.Block

/-!
# Blocks and what can be seen of them

A block is had at a power of two, where layout and allocator allow it.  How much can be seen of it is a matter
of its size, as long as the type suits its alignment.

* `Block.overrun`        why a view is refused that is longer than the block;
* `Block.Suits`          an element type that suits a block: nothing but the size decides then
                         (`Suits.check_eq`);
* `Block.exists_update`  a change of a view is seen in the view and nowhere behind it;
* `Block.Reached`        what becomes of a fresh block by writing.  Its size and its alignment are those that
                         were asked for (`Reached.size_eq`, `Reached.alignment_eq`).
-/

namespace Offload

theorem Size.mul?_of_lt {a b n : Nat} (h : a * b ≤ n) (hn : n < limit) : mul? a b = some (a * b) :=
  mul?_eq_some (Nat.lt_of_le_of_lt h hn)

namespace Block

variable {grants : Allocator} {size alignment : Nat} {b b' : Block} {e : Element} {count : Nat}

/-! ## fresh blocks -/

/-- No block is larger than a size. -/
theorem size_lt_of_zeroed (h : zeroed grants size alignment = .ok b) : size < Size.limit := by
  have hlimit : layoutLimit < Size.limit := by decide
  unfold zeroed at h
  split at h
  · cases h
  · split at h
    · cases h
    · omega

/-- At a proper alignment only the memory can be wanting. -/
theorem eq_allocationFailed_of_zeroed {err : Error} (ha : Size.isPower alignment = true)
    (h : zeroed grants size alignment = .error err) : ∃ reason, err = .allocationFailed size reason := by
  unfold zeroed at h
  rw [ha] at h
  split at h
  · rename_i hno
    cases hno
  · split at h
    · cases h
      exact ⟨_, rfl⟩
    · split at h
      · cases h
        exact ⟨_, rfl⟩
      · cases h

/-! ## which views there are -/

theorem check_of_le (h : count * e.bytes ≤ b.size) (hs : b.size < Size.limit) (ha : e.bytes ≤ b.alignment) :
    b.check e count = .ok () := by
  unfold check
  rw [Size.mul?_of_lt h hs]
  show (if b.size < count * e.bytes then _ else _) = _
  rw [if_neg (Nat.not_lt.mpr h), if_neg fun hm => Nat.not_lt.mpr ha hm.2]

/-- why so many bytes cannot be seen of a block of fewer: they may even be too many to be counted -/
def overrun (size bytes : Nat) : Crash :=
  if bytes < Size.limit then .rangeEnd bytes size else .overflow "multiply"

theorem check_of_lt (h : b.size < count * e.bytes) :
    b.check e count = .error (overrun b.size (count * e.bytes)) := by
  unfold check overrun
  by_cases hc : count * e.bytes < Size.limit
  · rw [Size.mul?_eq_some hc, if_pos hc]
    exact if_pos h
  · rw [Size.mul?_eq_none (Nat.not_lt.mp hc), if_neg hc]

/-- The lanes of the type are aligned in the block. -/
structure Suits (b : Block) (e : Element) : Prop where
  size_lt : b.size < Size.limit
  aligned : e.bytes ≤ b.alignment

theorem Suits.check_eq (h : b.Suits e) (count : Nat) : b.check e count =
    if b.size < count * e.bytes then .error (overrun b.size (count * e.bytes)) else .ok () := by
  split
  · rename_i hlt
    exact check_of_lt hlt
  · rename_i hle
    exact check_of_le (Nat.not_lt.mp hle) h.size_lt h.aligned

theorem view_eq_ok_iff {xs : List (Lane e)} : b.view e count = .ok xs ↔
    b.check e count = .ok () ∧ Memory.decode count b.bytes = xs := by
  unfold view
  cases b.check e count with
  | error c => exact ⟨fun h => (nomatch h), fun h => (nomatch h.1)⟩
  | ok u => exact ⟨fun h => ⟨rfl, Except.ok.inj h⟩, fun h => congrArg _ h.2⟩

theorem Suits.view_of_le (h : b.Suits e) (hle : count * e.bytes ≤ b.size) :
    b.view e count = .ok (Memory.decode count b.bytes) :=
  view_eq_ok_iff.mpr ⟨check_of_le hle h.size_lt h.aligned, rfl⟩

theorem Suits.view_eq_error_iff (h : b.Suits e) {c : Crash} : b.view e count = .error c ↔
    b.size < count * e.bytes ∧ c = overrun b.size (count * e.bytes) := by
  unfold view
  rw [h.check_eq]
  by_cases hlt : b.size < count * e.bytes
  · rw [if_pos hlt]
    exact ⟨fun hc => ⟨hlt, (Except.error.inj hc).symm⟩, fun hc => congrArg _ hc.2.symm⟩
  · rw [if_neg hlt]
    exact ⟨fun hc => (nomatch hc), fun hc => absurd hc.1 hlt⟩

/-! ## writing -/

section
variable {xs ys : List (Lane e)}

/-- Behind what is written nothing changes. -/
theorem drop_store (h : xs.length * e.bytes ≤ b.size) :
    (b.store xs).bytes.drop (xs.length * e.bytes) = b.bytes.drop (xs.length * e.bytes) := by
  rw [bytes_store h]
  exact List.drop_left' (Memory.length_encode xs)

/-- Of two writes of one length only the second is left. -/
theorem store_store (hl : xs.length = ys.length) (h : ys.length * e.bytes ≤ b.size) :
    (b.store xs).store ys = b.store ys := by
  have hx : xs.length * e.bytes ≤ b.size := hl ▸ h
  have hbytes : ((b.store xs).store ys).bytes = (b.store ys).bytes := by
    rw [bytes_store ((b.size_store xs).symm ▸ h), bytes_store h, ← hl, drop_store hx]
  exact congrArg (Block.mk · b.alignment) hbytes

theorem length_of_view (h : b.view e count = .ok xs) : xs.length = count := by
  rw [← (view_eq_ok_iff.mp h).2]
  exact Memory.length_decode count b.bytes

theorem le_size_of_view (h : b.view e count = .ok xs) : count * e.bytes ≤ b.size :=
  le_size_of_check (view_eq_ok_iff.mp h).1

/-- To write what is seen changes nothing. -/
theorem store_of_view (h : b.view e count = .ok xs) : b.store xs = b := by
  rw [← (view_eq_ok_iff.mp h).2]
  exact store_decode (le_size_of_view h)

/-- Where there is a view, what is written instead of it is seen. -/
theorem view_store_of_view (h : b.view e count = .ok xs) (hl : ys.length = count) :
    (b.store ys).view e count = .ok ys := by
  subst hl
  exact view_store (view_eq_ok_iff.mp h).1

end

/-! ## changing a view -/

section
variable {xs : List (Lane e)} {change : List (Lane e) → List (Lane e)}

/-- A view can be changed wherever there is one. -/
theorem update_eq_error_iff {c : Crash} :
    b.update e count change = .error c ↔ b.view e count = .error c := by
  unfold update
  cases b.view e count with
  | error c' =>
    show Except.error _ = Except.error _ ↔ Except.error _ = Except.error _
    rw [Except.error.injEq, Except.error.injEq]
  | ok xs => exact ⟨fun h => (nomatch h), fun h => (nomatch h)⟩

theorem update_of_view (h : b.view e count = .ok xs) :
    b.update e count change = .ok (b.store (Slice.put xs 0 (change xs))) := by
  rw [update, h]

/-- A change that keeps the number of lanes is written as it is. -/
theorem update_of_length_eq (h : b.view e count = .ok xs) (hl : (change xs).length = xs.length) :
    b.update e count change = .ok (b.store (change xs)) := by
  rw [update_of_view h, Slice.put_of_length_eq hl.symm]

/-- Whatever is written through a view, the block stays as large as it was, and where it was. -/
theorem shape_of_update (h : b.update e count change = .ok b') :
    b'.size = b.size ∧ b'.alignment = b.alignment := by
  cases hv : b.view e count with
  | error c =>
    rw [update_eq_error_iff.mpr hv] at h
    cases h
  | ok xs =>
    rw [update_of_view hv] at h
    cases h
    exact ⟨b.size_store _, b.alignment_store _⟩

/-- A change is seen in the view, and nothing behind the view is touched. -/
theorem exists_update (h : b.view e count = .ok xs) (change : List (Lane e) → List (Lane e)) :
    ∃ b', b.update e count change = .ok b' ∧ b'.view e count = .ok (Slice.put xs 0 (change xs)) ∧
      b'.bytes.drop (count * e.bytes) = b.bytes.drop (count * e.bytes) := by
  have hl : (Slice.put xs 0 (change xs)).length = count := (Slice.length_put ..).trans (length_of_view h)
  have hsize : (Slice.put xs 0 (change xs)).length * e.bytes ≤ b.size := hl.symm ▸ le_size_of_view h
  have hbehind := drop_store hsize
  rw [hl] at hbehind
  exact ⟨_, update_of_view h, view_store_of_view h hl, hbehind⟩

/-- To turn a view round twice changes nothing. -/
theorem update_reverse_reverse (h : b.view e count = .ok xs) :
    ∃ b', b.update e count List.reverse = .ok b' ∧ b'.view e count = .ok xs.reverse ∧
      b'.update e count List.reverse = .ok b := by
  have hl := length_of_view h
  have hsize : xs.length * e.bytes ≤ b.size := hl.symm ▸ le_size_of_view h
  have hview : (b.store xs.reverse).view e count = .ok xs.reverse :=
    view_store_of_view h (List.length_reverse.trans hl)
  refine ⟨_, update_of_length_eq h List.length_reverse, hview, ?_⟩
  rw [update_of_length_eq hview List.length_reverse, List.reverse_reverse,
    store_store List.length_reverse hsize, store_of_view h]

end

/-! ## what becomes of a block -/

/-- What becomes of a fresh block: views of any type are changed, and bytes are replaced by as many. -/
inductive Reached (grants : Allocator) (size alignment : Nat) : Block → Prop
  | zeroed {b : Block} : Block.zeroed grants size alignment = .ok b → Reached grants size alignment b
  | update {b b' : Block} {e : Element} {count : Nat} {change : List (Lane e) → List (Lane e)} :
      Reached grants size alignment b → b.update e count change = .ok b' → Reached grants size alignment b'
  | replace {b : Block} {bytes : List UInt8} :
      Reached grants size alignment b → bytes.length = b.size →
      Reached grants size alignment { b with bytes := bytes }

theorem Reached.size_lt (h : Reached grants size alignment b) : size < Size.limit := by
  induction h with
  | zeroed hz => exact size_lt_of_zeroed hz
  | update _ _ ih => exact ih
  | replace _ _ ih => exact ih

theorem Reached.size_eq (h : Reached grants size alignment b) : b.size = size := by
  induction h with
  | zeroed hz =>
    rw [zeroed_eq_ok hz]
    exact List.length_replicate
  | update _ hu ih => exact (shape_of_update hu).1.trans ih
  | replace _ hl ih => exact hl.trans ih

theorem Reached.alignment_eq (h : Reached grants size alignment b) : b.alignment = alignment := by
  induction h with
  | zeroed hz => rw [zeroed_eq_ok hz]
  | update _ hu ih => exact (shape_of_update hu).2.trans ih
  | replace _ _ ih => exact ih

theorem Reached.suits (h : Reached grants size alignment b) (he : e.bytes ≤ alignment) : b.Suits e where
  size_lt := h.size_eq ▸ h.size_lt
  aligned := h.alignment_eq ▸ he

end Block

end Offload
