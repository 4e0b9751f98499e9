import Offload.Proofs.Accelerator.Memory

/-!
# Device memory under any arguments

Nothing protects the memory from numbers, classes, types and lengths that do not belong together, so every
operation looks at them itself.

* `Look`, `Op.looks`      one look, and all looks of an operation in their order;
* `Look.refusal?`         what a look refuses the operation with;
* `Memory.Reached`        the memories that such operations lead to.  All are sound (`Reached.sound`);
* `Sound.perform_cases`   the first look that refuses is the answer, and nothing has happened then;
* `operations_atomic`     no operation crashes or stops halfway.
-/

namespace Offload

namespace Accelerator.Memory

/-! ## looks -/

/-- one look at what is live -/
inductive Look where
  | live (id : Nat)
  | space (id : Nat) (space : MemoryClass)
  | element (id : Nat) (e : Element)
  /-- whether there are so many elements -/
  | length (id count : Nat)
  deriving DecidableEq, Repr

/-- Of a number that is not live only that is said. -/
def Look.refusal? (m : Memory) : Look → Option Error
  | live id => if m.contains id then none else some (.invalidHandle id)
  | space id s => (m.live.find? id).bind fun a =>
    if a.space = s then none else some (.wrongMemoryClass id s a.space)
  | element id e => (m.live.find? id).bind fun a =>
    if a.element = e then none else some (.typeMismatch a.element.name e.name)
  | length id count => (m.live.find? id).bind fun a =>
    if count ≤ a.length then none else some (.bufferOutOfBounds count a.length)

/-- the first refusal -/
def refusal? (m : Memory) (looks : List Look) : Option Error := looks.findSome? (Look.refusal? m)

/-- the looks at elements of an allocation, from its first on -/
def Look.window (id : Nat) (e : Element) (count : Nat) : List Look :=
  [.live id, .element id e, .length id count]

/-- an operation with any arguments -/
inductive Op where
  | allocate (grants : Allocator) (e : Element) (length alignment : Nat) (space : MemoryClass)
  | free (id : Nat) (space : MemoryClass)
  | write (e : Element) (id : Nat) (xs : List (Lane e))
  | read (e : Element) (id count : Nat)
  | copy (e : Element) (dst src count : Nat)

namespace Op

def Value : Op → Type
  | allocate .. | free .. => Nat
  | write .. | copy .. => Unit
  | read e .. => List (Lane e)

/-- Only allocations have to be asked for properly. -/
def Proper : Op → Prop
  | allocate _ e _ alignment _ => Size.isPower alignment = true ∧ e.bytes ≤ alignment
  | _ => True

/-- what an operation on what is live looks at, in order -/
def looks : Op → List Look
  | allocate .. => []
  | free id space => [.live id, .space id space]
  | write e id xs => Look.window id e xs.length
  | read e id count => Look.window id e count
  | copy e dst src count =>
    if dst = src then Look.window src e count
    else .live dst :: (Look.window src e count ++ [.element dst e, .length dst count])

/-- whether nothing but what is live decides -/
def Looks : Op → Prop
  | allocate .. => False
  | _ => True

end Op

def perform (m : Memory) : (o : Op) → Outcome o.Value × Memory
  | .allocate grants e length alignment space =>
    match m.allocate grants (length * e.bytes) alignment space e length with
    | .error err => (.error (.error err), m)
    | .ok (id, n) => (.ok id, n)
  | .free id space => m.free id space
  | .write _ id xs => m.write id xs
  | .read e id count => (m.view id e count, m)
  | .copy e dst src count => m.copyBetween e dst src count

/-- the memories that operations lead to -/
inductive Reached : Memory → Prop
  | fresh (limit : Option Nat) : Reached (fresh limit)
  | step {m : Memory} {o : Op} : m.Reached → o.Proper → Reached (m.perform o).2

/-! ## allocating -/

section
variable {m n : Memory} {grants : Allocator} {size alignment length id : Nat} {space : MemoryClass} {e : Element}

theorem size_lt_of_allocate (h : m.allocate grants size alignment space e length = .ok (id, n)) :
    size < Size.limit := by
  unfold allocate at h
  split at h
  · cases h
  · split at h
    · cases h
    · exact Block.size_lt_of_zeroed ‹_›

theorem allocate_eq_error {err : Error} (ha : Size.isPower alignment = true)
    (h : m.allocate grants size alignment space e length = .error err) :
    ∃ reason, err = .allocationFailed size reason := by
  unfold allocate at h
  rcases m.checkRoom_cases size space with hroom | ⟨limit, -, -, -, hroom⟩
  · rw [hroom] at h
    cases hz : Block.zeroed grants size alignment with
    | error er =>
      rw [hz] at h
      cases h
      exact Block.eq_allocationFailed_of_zeroed ha hz
    | ok block =>
      rw [hz] at h
      cases h
  · rw [hroom] at h
    cases h
    exact ⟨_, rfl⟩

end

/-! ## what the looks refuse -/

section
variable (m : Memory)

theorem refusal?_live (id : Nat) (looks : List Look) : m.refusal? (.live id :: looks) =
    match m.live.find? id with
    | none => some (.invalidHandle id)
    | some _ => m.refusal? looks := by
  have hlook : Look.refusal? m (.live id) =
    if (m.live.find? id).isSome then none else some (.invalidHandle id) := rfl
  unfold refusal?
  rw [List.findSome?_cons, hlook]
  cases m.live.find? id <;> rfl

theorem refusal?_space {id : Nat} {a : Allocation} (ha : m.live.find? id = some a) (space : MemoryClass) :
    m.refusal? [.space id space] =
      if a.space = space then none else some (.wrongMemoryClass id space a.space) := by
  unfold refusal?
  rw [List.findSome?_singleton]
  exact congrArg (Option.bind · _) ha

/-- The type is looked at before the length. -/
theorem refusal?_elements {id : Nat} {a : Allocation} (ha : m.live.find? id = some a) (e : Element)
    (count : Nat) (looks : List Look) : m.refusal? (.element id e :: .length id count :: looks) =
      match a.check e count with
      | .error err => some err
      | .ok () => m.refusal? looks := by
  unfold refusal?
  rw [List.findSome?_cons, List.findSome?_cons]
  unfold Look.refusal? Allocation.check
  simp only [ha, Option.bind_some]
  by_cases he : a.element = e
  · subst he
    by_cases hc : count ≤ a.length
    · simp only [if_true, if_pos hc, ne_eq, not_true_eq_false, if_false, if_neg (Nat.not_lt.mpr hc)]
    · simp only [if_true, if_neg hc, ne_eq, not_true_eq_false, if_false, if_pos (Nat.lt_of_not_le hc)]
  · simp only [if_neg he, ne_eq, Ne.symm he, not_false_eq_true, if_true]

theorem refusal?_window (id : Nat) (e : Element) (count : Nat) (looks : List Look) :
    m.refusal? (Look.window id e count ++ looks) =
      match m.live.find? id with
      | none => some (.invalidHandle id)
      | some a =>
        match a.check e count with
        | .error err => some err
        | .ok () => m.refusal? looks := by
  show m.refusal? (.live id :: _) = _
  rw [refusal?_live]
  cases ha : m.live.find? id with
  | none => rfl
  | some a => exact m.refusal?_elements ha e count looks

end

/-! ## the operations -/

section
variable {m : Memory} {e : Element} {id count : Nat} {f : Failure Error}

theorem write_of_fits_error {xs : List (Lane e)} (h : m.fits id e xs.length = .error f) :
    m.write id xs = (.error f, m) := by
  unfold fits find at h
  unfold write find
  cases ha : m.live.find? id with
  | none =>
    rw [ha] at h
    cases h
    rfl
  | some a =>
    rw [ha] at h
    dsimp only at h ⊢
    rw [h]

theorem write_of_fits_ok {xs : List (Lane e)} (h : m.fits id e xs.length = .ok ()) :
    (m.write id xs).1 = .ok () := by
  unfold fits find at h
  unfold write find
  cases ha : m.live.find? id with
  | none =>
    rw [ha] at h
    cases h
  | some a =>
    rw [ha] at h
    dsimp only at h ⊢
    rw [h]

theorem view_of_fits_error (h : m.fits id e count = .error f) : m.view id e count = .error f := by
  unfold fits find at h
  unfold view find
  cases ha : m.live.find? id with
  | none =>
    rw [ha] at h
    cases h
    rfl
  | some a =>
    rw [ha] at h
    dsimp only at h ⊢
    unfold Allocation.view
    rw [h]

theorem view_of_fits_ok (h : m.fits id e count = .ok ()) : ∃ xs, m.view id e count = .ok xs := by
  unfold fits find at h
  unfold view find
  cases ha : m.live.find? id with
  | none =>
    rw [ha] at h
    cases h
  | some a =>
    rw [ha] at h
    dsimp only at h ⊢
    unfold Allocation.view
    rw [h]
    exact ⟨_, rfl⟩

end

section
variable {m : Memory} (hm : m.Sound)
include hm

theorem Sound.fits_eq (id : Nat) (e : Element) (count : Nat) : m.fits id e count =
    match m.refusal? (Look.window id e count) with
    | some err => .error (.error err)
    | none => .ok () := by
  have hw := m.refusal?_window id e count []
  rw [List.append_nil] at hw
  rw [hw]
  unfold fits find
  cases ha : m.live.find? id with
  | none => rfl
  | some a =>
    show a.fits e count = _
    rw [(hm.allocations ha).fits]
    dsimp only
    cases a.check e count <;> rfl

theorem Sound.free_cases (id : Nat) (space : MemoryClass) :
    (∃ err, m.refusal? [.live id, .space id space] = some err ∧ m.free id space = (.error (.error err), m)) ∨
    ∃ a, m.live.find? id = some a ∧ m.refusal? [.live id, .space id space] = none ∧
      m.free id space = (.ok a.block.size, m.release id a) := by
  rw [hm.free, refusal?_live]
  cases ha : m.live.find? id with
  | none => exact .inl ⟨_, rfl, rfl⟩
  | some a =>
    dsimp only
    rw [m.refusal?_space ha]
    by_cases hs : a.space = space
    · rw [if_pos hs, if_neg (not_not_intro hs)]
      exact .inr ⟨a, rfl, rfl, rfl⟩
    · rw [if_neg hs, if_pos hs]
      exact .inl ⟨_, rfl, rfl⟩

/-- A copy between two allocations: the destination has to be live, the source is looked at, and then the
rest of the destination. -/
theorem Sound.copyBetween_cases {dst src : Nat} (hne : dst ≠ src) (e : Element) (count : Nat) :
    let looks := .live dst :: (Look.window src e count ++ [.element dst e, .length dst count])
    (∃ err, m.refusal? looks = some err ∧ m.copyBetween e dst src count = (.error (.error err), m)) ∨
    ∃ b xs, m.live.find? dst = some b ∧ m.refusal? looks = none ∧
      m.copyBetween e dst src count = (.ok (), m.restore dst (b.store (xs : List (Lane e)))) := by
  intro looks
  have hfirst : m.refusal? looks = _ := m.refusal?_live dst _
  cases hb : m.live.find? dst with
  | none =>
    rw [hb] at hfirst
    refine .inl ⟨_, hfirst, ?_⟩
    unfold Memory.copyBetween take find
    rw [if_neg hne, hb]
  | some b =>
    rw [hb] at hfirst
    rw [hfirst, hm.copyBetween hne hb]
    dsimp only
    rw [refusal?_window]
    unfold view find
    cases ha : m.live.find? src with
    | none => exact .inl ⟨_, rfl, rfl⟩
    | some a =>
      dsimp only
      unfold Allocation.view
      rw [(hm.allocations ha).fits, (hm.allocations hb).fits]
      cases a.check e count with
      | error err => exact .inl ⟨_, rfl, rfl⟩
      | ok u =>
        dsimp only
        rw [m.refusal?_elements hb]
        cases b.check e count with
        | error err => exact .inl ⟨_, rfl, rfl⟩
        | ok u => exact .inr ⟨b, _, rfl, rfl, rfl⟩

/-- The first look that refuses is the answer, and nothing has happened then. -/
theorem Sound.perform_cases {o : Op} (ho : o.Looks) :
    (∃ err, m.refusal? o.looks = some err ∧ m.perform o = (.error (.error err), m)) ∨
    (m.refusal? o.looks = none ∧ ∃ v, (m.perform o).1 = .ok v) := by
  cases o with
  | allocate grants e length alignment space => exact ho.elim
  | free id space =>
    rcases hm.free_cases id space with ⟨err, hr, hf⟩ | ⟨a, -, hr, hf⟩
    · exact .inl ⟨err, hr, hf⟩
    · exact .inr ⟨hr, _, congrArg Prod.fst hf⟩
  | write e id xs =>
    have hfits := hm.fits_eq id e xs.length
    show (∃ err, m.refusal? (Look.window id e xs.length) = some err ∧ m.write id xs = _) ∨
      (m.refusal? (Look.window id e xs.length) = none ∧ ∃ v, (m.write id xs).1 = _)
    cases hr : m.refusal? (Look.window id e xs.length) with
    | some err =>
      rw [hr] at hfits
      exact .inl ⟨err, rfl, write_of_fits_error hfits⟩
    | none =>
      rw [hr] at hfits
      exact .inr ⟨rfl, (), write_of_fits_ok hfits⟩
  | read e id count =>
    have hfits := hm.fits_eq id e count
    show (∃ err, m.refusal? (Look.window id e count) = some err ∧ (m.view id e count, m) = _) ∨
      (m.refusal? (Look.window id e count) = none ∧ ∃ v, m.view id e count = _)
    cases hr : m.refusal? (Look.window id e count) with
    | some err =>
      rw [hr] at hfits
      exact .inl ⟨err, rfl, congrArg (·, m) (view_of_fits_error hfits)⟩
    | none =>
      rw [hr] at hfits
      exact .inr ⟨rfl, view_of_fits_ok hfits⟩
  | copy e dst src count =>
    by_cases hne : dst = src
    · subst hne
      have hfits := hm.fits_eq dst e count
      have hlooks : (Op.copy e dst dst count).looks = Look.window dst e count := if_pos rfl
      have hcopy : m.perform (.copy e dst dst count) = _ := if_pos rfl
      rw [hlooks, hcopy, hfits]
      cases m.refusal? (Look.window dst e count) with
      | some err => exact .inl ⟨err, rfl, rfl⟩
      | none => exact .inr ⟨rfl, (), rfl⟩
    · have hlooks : (Op.copy e dst src count).looks = _ := if_neg hne
      rw [hlooks]
      rcases hm.copyBetween_cases hne e count with ⟨err, hr, hc⟩ | ⟨b, xs, -, hr, hc⟩
      · exact .inl ⟨err, hr, hc⟩
      · exact .inr ⟨hr, (), congrArg Prod.fst hc⟩

end

/-! ## memories that are reached -/

theorem Sound.perform {m : Memory} (hm : m.Sound) {o : Op} (ho : o.Proper) : (m.perform o).2.Sound := by
  cases o with
  | allocate grants e length alignment space =>
    show Sound (match m.allocate grants (length * e.bytes) alignment space e length with
      | .error err => (.error (.error err), m)
      | .ok (id, n) => (.ok id, n) : Outcome Nat × Memory).2
    cases ha : m.allocate grants (length * e.bytes) alignment space e length with
    | error err => exact hm
    | ok r =>
      obtain ⟨hroom, -, hn⟩ := allocate_eq_ok ha
      let b : Allocation := ⟨⟨List.replicate (length * e.bytes) 0, alignment⟩, space, e, length⟩
      have hsize : b.block.size = length * e.bytes := List.length_replicate
      have hlimit : b.block.size < Size.limit := by
        rw [hsize]
        exact size_lt_of_allocate ha
      have hbroom : m.checkRoom b.block.size b.space = .ok () := by
        rw [hsize]
        exact hroom
      show r.2.Sound
      rw [hn]
      exact hm.enlist ⟨hsize, hlimit, ho.2⟩ hbroom
  | free id space =>
    show (m.free id space).2.Sound
    rcases hm.free_cases id space with ⟨err, -, hf⟩ | ⟨a, ha, -, hf⟩
    · rw [hf]
      exact hm
    · rw [hf]
      exact hm.release ha
  | write e id xs => exact (m.rewrites_write id xs).sound hm
  | read e id count => exact hm
  | copy e dst src count => exact (hm.rewrites_copyBetween e dst src count).sound hm

theorem Reached.sound {m : Memory} (h : m.Reached) : m.Sound := by
  induction h with
  | fresh limit => exact sound_fresh limit
  | step _ ho ih => exact ih.perform ho

/-- An allocation succeeds, or nothing has happened. -/
theorem perform_allocate_cases (m : Memory) (grants : Allocator) (e : Element) (length alignment : Nat)
    (space : MemoryClass) :
    (∃ id, (m.perform (.allocate grants e length alignment space)).1 = .ok id) ∨
    ∃ err, m.allocate grants (length * e.bytes) alignment space e length = .error err ∧
      m.perform (.allocate grants e length alignment space) = (.error (.error err), m) := by
  unfold Memory.perform
  dsimp only
  cases m.allocate grants (length * e.bytes) alignment space e length with
  | error err => exact .inr ⟨err, rfl, rfl⟩
  | ok r => exact .inl ⟨r.1, rfl⟩

/-- **Operations on device memory are atomic**, whatever they are given.  Each of them succeeds, or answers an
error and leaves the memory as it was; none crashes.  The error is that of the first look that refuses, and an
allocation at a proper alignment fails only for want of memory.  After a copy the same numbers are live as
before, and a copy of an allocation onto itself changes nothing. -/
theorem operations_atomic {m : Memory} (hm : m.Reached) :
    (∀ o, (∃ v, (m.perform o).1 = .ok v) ∨ ∃ err, m.perform o = (.error (.error err), m)) ∧
    (∀ o : Op, o.Looks → ∀ err, (m.perform o).1 = .error (.error err) ↔ m.refusal? o.looks = some err) ∧
    (∀ grants e length alignment space err, Size.isPower alignment = true →
      (m.perform (.allocate grants e length alignment space)).1 = .error (.error err) →
        ∃ reason, err = .allocationFailed (length * e.bytes) reason) ∧
    (∀ e dst src count id, (m.copyBetween e dst src count).2.contains id = m.contains id) ∧
    ∀ e id count, (m.copyBetween e id id count).2 = m := by
  have sound := hm.sound
  refine ⟨fun o => ?_, fun o ho err => ?_, fun grants e length alignment space err hpower herr => ?_,
    fun e dst src count => (sound.rewrites_copyBetween e dst src count).contains_eq,
    fun e id count => ?_⟩
  · by_cases ho : o.Looks
    · rcases sound.perform_cases ho with ⟨err, -, hp⟩ | ⟨-, hv⟩
      · exact .inr ⟨err, hp⟩
      · exact .inl hv
    · cases o with
      | allocate grants e length alignment space =>
        rcases m.perform_allocate_cases grants e length alignment space with hok | ⟨err, -, herr⟩
        · exact .inl hok
        · exact .inr ⟨err, herr⟩
      | _ => exact absurd trivial ho
  · rcases sound.perform_cases ho with ⟨found, hr, hp⟩ | ⟨hr, v, hv⟩
    · rw [hr, hp]
      simp only [Except.error.injEq, Failure.error.injEq, Option.some.injEq]
    · rw [hr, hv]
      exact ⟨fun h => (nomatch h), fun h => (nomatch h)⟩
  · rcases m.perform_allocate_cases grants e length alignment space with ⟨id, hok⟩ | ⟨found, ha, hp⟩
    · rw [hok] at herr
      cases herr
    · rw [hp] at herr
      cases herr
      exact allocate_eq_error hpower ha
  · unfold copyBetween
    rw [if_pos rfl]
    cases m.fits id e count <;> rfl

/-- four elements of one type and two of another -/
def sample : Memory :=
  let first := ((fresh none).perform (.allocate (fun _ _ => true) .u32 4 4 .deviceExclusive)).2
  (first.perform (.allocate (fun _ _ => true) .u16 2 8 .hostVisible)).2

theorem reached_sample : sample.Reached :=
  .step (.step (.fresh none) ⟨rfl, by decide⟩) ⟨rfl, by decide⟩

/-- The source is found missing before it is too short, and too short before the destination is found to be of
another type.  In the end the destination is still there. -/
theorem operations_atomic_sample : sample.Reached ∧
    (sample.copyBetween .u16 1 7 3).1 = .error (.error (.invalidHandle 7)) ∧
    (sample.copyBetween .u16 1 2 3).1 = .error (.error (.bufferOutOfBounds 3 2)) ∧
    (sample.copyBetween .u16 1 2 2).1 = .error (.error (.typeMismatch "u32" "u16")) ∧
    (sample.copyBetween .u16 1 2 2).2.contains 1 = true := by
  obtain ⟨-, hlooks, -, hlive, -⟩ := operations_atomic reached_sample
  exact ⟨reached_sample, (hlooks (.copy .u16 1 7 3) trivial _).mpr rfl,
    (hlooks (.copy .u16 1 2 3) trivial _).mpr rfl, (hlooks (.copy .u16 1 2 2) trivial _).mpr rfl,
    (hlive .u16 1 2 2 1).trans rfl⟩

end Accelerator.Memory

end Offload
