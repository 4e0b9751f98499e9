import Mathlib
import Offload.Accelerator.Fleet
import Offload.Proofs.Accelerator.Known

/-!
# Executors and the handles they issue

A handle comes only from an allocation, but it is a plain value: it can be kept when what it names is
gone, and given to any executor.

* `Ledger`            the handles issued so far, and those that were not given back;
* `World`             executors and their ledger; `World.step` makes one, calls one with issued handles,
                      or lets one go;
* `World.Reachable`   what can come of that, from nothing;
* `Memory.Serves`     what is live is what the handles of a memory say, one for one;
* `Reachable.sound`   every executor serves its handles, whatever was done before.
-/

namespace Offload.Accelerator

namespace AnyHandle

def id (t : AnyHandle) : Nat := t.handle.id

def owner (t : AnyHandle) : Nat := t.handle.owner

def space (t : AnyHandle) : MemoryClass := t.handle.space

/-- in bytes -/
def size (t : AnyHandle) : Nat := t.handle.length * t.element.bytes

end AnyHandle

/-! ## the ledger -/

structure Ledger where
  issued : List AnyHandle
  /-- issued and not given back -/
  held : List AnyHandle

namespace Ledger

variable {l : Ledger} {t : AnyHandle} {i j : Nat}

def empty : Ledger := ⟨[], []⟩

def issue (l : Ledger) (t : AnyHandle) : Ledger := ⟨t :: l.issued, t :: l.held⟩

def giveBack (l : Ledger) (t : AnyHandle) : Ledger := { l with held := l.held.erase t }

/-- Everything that an executor issued is given back. -/
def release (l : Ledger) (owner : Nat) : Ledger :=
  { l with held := l.held.filter (·.owner ≠ owner) }

/-- what a call of an executor enters, by its result -/
def enter (l : Ledger) (owner : Nat) : (c : Call) → Outcome c.Value → Ledger
  | .allocate e .., .ok h => l.issue ⟨e, h⟩
  | .deallocate e h, .ok _ => l.giveBack ⟨e, h⟩
  | .teardown, .ok _ => l.release owner
  | _, _ => l

def issuedBy (l : Ledger) (owner : Nat) : List AnyHandle := l.issued.filter (·.owner = owner)

def heldBy (l : Ledger) (owner : Nat) : List AnyHandle := l.held.filter (·.owner = owner)

theorem mem_issuedBy : t ∈ l.issuedBy i ↔ t ∈ l.issued ∧ t.owner = i := by
  rw [issuedBy, List.mem_filter, decide_eq_true_eq]

theorem mem_heldBy : t ∈ l.heldBy i ↔ t ∈ l.held ∧ t.owner = i := by
  rw [heldBy, List.mem_filter, decide_eq_true_eq]

theorem issuedBy_issue : (l.issue t).issuedBy i =
    if t.owner = i then t :: l.issuedBy i else l.issuedBy i := by
  unfold issuedBy issue
  rw [List.filter_cons]
  simp only [decide_eq_true_eq]

theorem heldBy_issue : (l.issue t).heldBy i =
    if t.owner = i then t :: l.heldBy i else l.heldBy i := by
  unfold heldBy issue
  rw [List.filter_cons]
  simp only [decide_eq_true_eq]

theorem heldBy_giveBack : (l.giveBack t).heldBy i = (l.heldBy i).erase t := List.erase_filter.symm

theorem heldBy_release : (l.release j).heldBy i = if i = j then [] else l.heldBy i := by
  unfold heldBy release
  rw [List.filter_filter]
  split
  · rename_i hij
    refine List.filter_eq_nil_iff.mpr fun s _ => ?_
    rw [hij, Bool.and_eq_true, decide_eq_true_eq, decide_eq_true_eq]
    exact fun h => h.2 h.1
  · rename_i hij
    refine List.filter_congr fun s _ => ?_
    by_cases hs : s.owner = i
    · simp only [hs, hij, decide_true, decide_not, decide_false, Bool.not_false, Bool.and_self]
    · simp only [hs, decide_false, Bool.false_and]

theorem enter_error (c : Call) (f : Failure Error) : l.enter i c (.error f) = l := by
  cases c <;> rfl

theorem enter_keepsLive {c : Call} (h : c.keepsLive = true) (o : Outcome c.Value) :
    l.enter i c o = l := by
  cases c <;> first | rfl | cases h

/-- No handle is issued twice, and what is held was issued. -/
structure Sound (l : Ledger) : Prop where
  once : ∀ {s t}, s ∈ l.issued → t ∈ l.issued → s.owner = t.owner → s.id = t.id → s = t
  issued_of_held : ∀ {t}, t ∈ l.held → t ∈ l.issued
  nodup : l.held.Nodup

theorem sound_empty : empty.Sound :=
  ⟨fun h => (nomatch h), fun h => (nomatch h), List.nodup_nil⟩

theorem Sound.issue (h : l.Sound) (hn : ∀ s ∈ l.issuedBy t.owner, s.id ≠ t.id) : (l.issue t).Sound := by
  have hnew : ∀ s ∈ l.issued, s.owner = t.owner → s.id ≠ t.id :=
    fun s hs ho => hn s (mem_issuedBy.mpr ⟨hs, ho⟩)
  refine ⟨?_, ?_, ?_⟩
  · intro r s hr hs ho hi
    rcases List.mem_cons.mp hr with hrt | hrl
    · rcases List.mem_cons.mp hs with hst | hsl
      · exact hrt.trans hst.symm
      · rw [hrt] at ho hi
        exact absurd hi.symm (hnew s hsl ho.symm)
    · rcases List.mem_cons.mp hs with hst | hsl
      · rw [hst] at ho hi
        exact absurd hi (hnew r hrl ho)
      · exact h.once hrl hsl ho hi
  · intro s hs
    rcases List.mem_cons.mp hs with rfl | hs
    · exact List.mem_cons_self
    · exact List.mem_cons_of_mem _ (h.issued_of_held hs)
  · exact List.nodup_cons.mpr ⟨fun ht => hnew t (h.issued_of_held ht) rfl rfl, h.nodup⟩

theorem Sound.giveBack (h : l.Sound) (t : AnyHandle) : (l.giveBack t).Sound :=
  ⟨h.once, fun ht => h.issued_of_held (List.mem_of_mem_erase ht), h.nodup.erase t⟩

theorem Sound.release (h : l.Sound) (i : Nat) : (l.release i).Sound :=
  ⟨h.once, fun ht => h.issued_of_held (List.mem_filter.mp ht).1, h.nodup.filter _⟩

end Ledger

/-! ## what a memory owes its handles -/

namespace Memory

/-- What is live is what the held handles say, one for one: a sum over what is live, by class and bytes,
is the sum over them. -/
structure Serves (m : Memory) (issued held : List AnyHandle) : Prop where
  numbered : ∀ t ∈ issued, t.id < m.nextId
  named : ∀ {id a}, m.live.find? id = some a → ∃ t ∈ held, t.id = id ∧ a.Matches t.handle
  live : ∀ t ∈ held, m.contains t.id = true
  balanced : ∀ f : MemoryClass → Nat → Nat,
    m.live.total (fun a => f a.space a.block.size) = (held.map fun t => f t.space t.size).sum

variable {m n : Memory} {I H : List AnyHandle} {t : AnyHandle} {a : Allocation}

theorem serves_fresh (limit : Option Nat) : (fresh limit).Serves [] [] :=
  ⟨fun _ h => (nomatch h), fun h => (nomatch h), fun _ h => (nomatch h), fun _ => rfl⟩

theorem Serves.rewrites (h : m.Serves I H) (hr : m.Rewrites n) : n.Serves I H where
  numbered t ht := hr.nextId_eq ▸ h.numbered t ht
  named {id b} hb := by
    obtain ⟨a, ha, hs⟩ := hr.find hb
    obtain ⟨t, ht, hid, hm⟩ := h.named ha
    exact ⟨t, ht, hid, hm.of_shape hs⟩
  live t ht := (hr.contains_eq t.id).trans (h.live t ht)
  balanced f := by
    rw [← h.balanced f]
    refine hr.total_eq fun a b hs => ?_
    simp only [Allocation.shape, Allocation.Shape.mk.injEq] at hs
    rw [hs.1, hs.2.2.2.1]

theorem Serves.enlist (h : m.Serves I H) (hm : m.Sound) (ht : a.Matches t.handle)
    (hid : t.id = m.nextId) : (m.enlist a).Serves (t :: I) (t :: H) where
  numbered s hs := by
    show s.id < m.nextId + 1
    rcases List.mem_cons.mp hs with rfl | hs
    · omega
    · exact Nat.lt_succ_of_lt (h.numbered s hs)
  named {id b} hb := by
    rw [find?_enlist] at hb
    split at hb
    · rename_i hn
      cases hb
      exact ⟨t, List.mem_cons_self, hid.trans hn.symm, ht⟩
    · obtain ⟨s, hs, hsid, hsm⟩ := h.named hb
      exact ⟨s, List.mem_cons_of_mem _ hs, hsid, hsm⟩
  live s hs := by
    unfold contains Registry.contains
    rw [find?_enlist]
    split
    · rfl
    · rename_i hn
      rcases List.mem_cons.mp hs with rfl | hs
      · exact absurd hid hn
      · exact h.live s hs
  balanced f := by
    have hf : f a.space a.block.size = f t.space t.size := by
      rw [ht.space_eq, ht.size_eq]
      rfl
    show (m.live.insert m.nextId a).total _ = _
    rw [Registry.total_insert_new hm.find?_nextId, h.balanced f, List.map_cons, List.sum_cons, hf,
      Nat.add_comm]

theorem Serves.release (h : m.Serves I H) (hn : H.Nodup) (once : ∀ s ∈ H, s.id = t.id → s = t)
    (ht : t ∈ H) (hf : m.live.find? t.id = some a) (hm : a.Matches t.handle) :
    (m.release t.id a).Serves I (H.erase t) where
  numbered s hs := by
    rw [nextId_release]
    exact h.numbered s hs
  named {id b} hb := by
    rw [live_release, Registry.find?_erase] at hb
    split at hb
    · cases hb
    · rename_i hne
      obtain ⟨s, hs, hid, hsm⟩ := h.named hb
      have hst : s ≠ t := by
        rintro rfl
        exact hne hid.symm
      exact ⟨s, (List.mem_erase_of_ne hst).mpr hs, hid, hsm⟩
  live s hs := by
    obtain ⟨hst, hs⟩ := hn.mem_erase_iff.mp hs
    have hne : s.id ≠ t.id := fun hid => hst (once s hs hid)
    unfold contains Registry.contains
    rw [live_release, Registry.find?_erase, if_neg hne]
    exact h.live s hs
  balanced f := by
    have hx : f a.space a.block.size = f t.space t.size := by
      rw [hm.space_eq, hm.size_eq]
      rfl
    have hl := m.live.total_erase t.id fun b => f b.space b.block.size
    rw [hf, Option.elim_some, h.balanced f, ← List.sum_map_erase (fun s => f s.space s.size) ht, hx] at hl
    rw [live_release]
    omega

theorem serves_releaseAll (h : m.Serves I H) : m.releaseAll.2.2.Serves I [] :=
  ⟨h.numbered, fun h => (nomatch h), fun _ h => (nomatch h), fun _ => rfl⟩

end Memory

/-! ## what one call enters -/

namespace Executor

/-- The executor owes its memory to the handles that it issued. -/
def Serves (x : Executor) (l : Ledger) : Prop :=
  x.memory.Serves (l.issuedBy x.id) (l.heldBy x.id)

variable {x : Executor} {l : Ledger}

/-- Of its own handles an executor knows every one that was ever issued. -/
theorem Serves.knows (hs : x.Serves l) (hl : l.Sound) {t : AnyHandle} (ht : t ∈ l.issued) :
    x.Knows t.handle := by
  intro ho a ha
  obtain ⟨s, hm, hid, hsm⟩ := hs.named ha
  obtain ⟨hm, hso⟩ := Ledger.mem_heldBy.mp hm
  have hst : s = t := hl.once (hl.issued_of_held hm) ht (hso.trans ho.symm) hid
  rw [← hst]
  exact hsm

/-- Of what it issued, just what is held is live. -/
theorem Serves.contains_iff (hs : x.Serves l) (hl : l.Sound) {t : AnyHandle} (ht : t ∈ l.issued)
    (ho : t.owner = x.id) : x.memory.contains t.id = true ↔ t ∈ l.held := by
  refine ⟨fun hc => ?_, fun hh => hs.live t (Ledger.mem_heldBy.mpr ⟨hh, ho⟩)⟩
  obtain ⟨b, hb⟩ := Option.isSome_iff_exists.mp hc
  obtain ⟨s, hm, hid, -⟩ := hs.named hb
  obtain ⟨hm, hso⟩ := Ledger.mem_heldBy.mp hm
  exact hl.once (hl.issued_of_held hm) ht (hso.trans ho.symm) hid ▸ hm

theorem enter_refuse (c : Call) (err : Error) :
    l.enter x.id c (x.refuse err : Reply c.Value).result = l := Ledger.enter_error c _

theorem Refuses.enter_eq {c : Call} {r : Reply c.Value} (h : x.Refuses r) :
    l.enter x.id c r.result = l := by
  obtain ⟨err, -, rfl⟩ := h
  exact enter_refuse c err

section
variable {c : Call} {r : Reply c.Value} (h : x.Effect c r)
include h

/-- Handles of other executors are not touched. -/
theorem Effect.enter_others {i : Nat} (hi : i ≠ x.id) :
    (l.enter x.id c r.result).issuedBy i = l.issuedBy i ∧
      (l.enter x.id c r.result).heldBy i = l.heldBy i := by
  cases h with
  | stopped _ =>
    rw [enter_refuse]
    exact ⟨rfl, rfl⟩
  | refused _ hd =>
    rw [hd.enter_eq]
    exact ⟨rfl, rfl⟩
  | goes _ hk _ =>
    rw [Ledger.enter_keepsLive hk]
    exact ⟨rfl, rfl⟩
  | allocated _ _ _ =>
    exact ⟨Ledger.issuedBy_issue.trans (if_neg (Ne.symm hi)),
      Ledger.heldBy_issue.trans (if_neg (Ne.symm hi))⟩
  | @freed e g a events _ ho _ _ =>
    have hg : (⟨e, g⟩ : AnyHandle) ∉ l.heldBy i :=
      fun hm => hi ((Ledger.mem_heldBy.mp hm).2.symm.trans ho)
    exact ⟨rfl, Ledger.heldBy_giveBack.trans (List.erase_of_not_mem hg)⟩
  | ended _ => exact ⟨rfl, Ledger.heldBy_release.trans (if_neg hi)⟩

theorem Effect.owner_of_enter {t : AnyHandle} (ht : t ∈ (l.enter x.id c r.result).issued) :
    t ∈ l.issued ∨ t.owner = x.id := by
  by_cases ho : t.owner = x.id
  · exact .inr ho
  · have hm := Ledger.mem_issuedBy.mpr ⟨ht, rfl⟩
    rw [(h.enter_others ho).1] at hm
    exact .inl (Ledger.mem_issuedBy.mp hm).1

theorem Effect.enter_sound (hl : l.Sound) (hs : x.Serves l) : (l.enter x.id c r.result).Sound := by
  cases h with
  | stopped _ =>
    rw [enter_refuse]
    exact hl
  | refused _ hd =>
    rw [hd.enter_eq]
    exact hl
  | goes _ hk _ =>
    rw [Ledger.enter_keepsLive hk]
    exact hl
  | allocated _ _ _ => exact hl.issue fun s hs' => Nat.ne_of_lt (hs.numbered s hs')
  | freed _ _ _ _ => exact hl.giveBack _
  | ended _ => exact hl.release x.id

/-- What a call does to the memory it enters in the ledger. -/
theorem Effect.serves (hx : x.Sound) (hl : l.Sound) (hs : x.Serves l)
    (hi : ∀ t ∈ c.handles, t ∈ l.issued) : r.executor.Serves (l.enter x.id c r.result) := by
  cases h with
  | stopped _ =>
    rw [enter_refuse]
    exact hs
  | refused _ hd =>
    rw [hd.enter_eq]
    obtain ⟨err, -, rfl⟩ := hd
    exact hs
  | goes _ hk hg =>
    rw [Ledger.enter_keepsLive hk]
    unfold Serves
    rw [hg.id_eq]
    exact Memory.Serves.rewrites hs hg.rewrites
  | @allocated e count _ space actual events _ ha _ =>
    have hm : (Allocation.zeroed space e count actual).Matches
        (⟨x.memory.nextId, count, space, x.id⟩ : Handle e) := ⟨rfl, rfl, rfl, ha.size_eq⟩
    have hn := Memory.Serves.enlist (t := ⟨e, ⟨x.memory.nextId, count, space, x.id⟩⟩) hs hx.memory hm rfl
    unfold Serves
    show Memory.Serves _ ((l.issue _).issuedBy x.id) ((l.issue _).heldBy x.id)
    rw [Ledger.issuedBy_issue, Ledger.heldBy_issue]
    show Memory.Serves _ (if x.id = x.id then _ else _) (if x.id = x.id then _ else _)
    rw [if_pos rfl, if_pos rfl]
    exact hn
  | @freed e g a events _ ho hf _ =>
    have hg : (⟨e, g⟩ : AnyHandle) ∈ l.issued := hi _ List.mem_cons_self
    have ham := hs.knows hl hg ho a hf
    -- something held names what is freed; numbers are issued once, so it is the handle given here
    obtain ⟨s, hsm, hid, -⟩ := hs.named hf
    have hsl := Ledger.mem_heldBy.mp hsm
    have once : ∀ t ∈ l.heldBy x.id, t.id = g.id → t = ⟨e, g⟩ := by
      intro t ht htid
      obtain ⟨ht, hto⟩ := Ledger.mem_heldBy.mp ht
      exact hl.once (hl.issued_of_held ht) hg (hto.trans ho.symm) htid
    have hgm : (⟨e, g⟩ : AnyHandle) ∈ l.heldBy x.id := once s hsm hid ▸ hsm
    unfold Serves
    show Memory.Serves _ _ ((l.giveBack ⟨e, g⟩).heldBy x.id)
    rw [Ledger.heldBy_giveBack]
    exact Memory.Serves.release (t := ⟨e, g⟩) hs (hl.nodup.filter _) once hgm hf ham
  | ended _ =>
    unfold Serves
    show Memory.Serves _ _ ((l.release x.id).heldBy x.id)
    rw [Ledger.heldBy_release, if_pos rfl]
    exact Memory.serves_releaseAll hs

end

end Executor

/-! ## worlds -/

structure World where
  fleet : Fleet
  ledger : Ledger

/-- one step of a world -/
inductive Action : Type 1 where
  | add (setup : Setup)
  | call (id : Nat) (a : Ambient) (c : Call)
  | drop (id : Nat)

namespace World

variable {w v : World}

def empty : World := ⟨.empty, .empty⟩

/-- An executor that cannot be made changes nothing, and only handles that were issued are given to a
call. -/
def step (w : World) : Action → Option World
  | .add setup =>
    match w.fleet.add setup with
    | .error _ => some w
    | .ok (_, fleet, _) => some { w with fleet := fleet }
  | .call id a c =>
    if ∀ t ∈ c.handles, t ∈ w.ledger.issued then
      match w.fleet.act id (·.perform a c) with
      | none => none
      | some (result, fleet, _) => some ⟨fleet, w.ledger.enter id c result⟩
    else none
  | .drop id =>
    match w.fleet.drop id with
    | none => none
    | some (fleet, _) => some ⟨fleet, w.ledger.release id⟩

/-- A new executor takes the next number. -/
theorem step_add {setup : Setup} (h : w.step (.add setup) = some v) :
    v = w ∨ ∃ x events, Executor.start w.fleet.nextId setup = .ok (x, events) ∧
      v = { w with fleet := ⟨w.fleet.executors.insert w.fleet.nextId x, w.fleet.nextId + 1⟩ } := by
  unfold World.step Fleet.add at h
  cases hst : Executor.start w.fleet.nextId setup with
  | error err =>
    simp only [hst] at h
    cases h
    exact .inl rfl
  | ok p =>
    simp only [hst] at h
    cases h
    exact .inr ⟨_, _, rfl, rfl⟩

theorem step_call {i : Nat} {a : Ambient} {c : Call} (h : w.step (.call i a c) = some v) :
    (∀ t ∈ c.handles, t ∈ w.ledger.issued) ∧ ∃ x, w.fleet.find? i = some x ∧
      v = ⟨{ w.fleet with executors := w.fleet.executors.insert i (x.perform a c).executor },
        w.ledger.enter i c (x.perform a c).result⟩ := by
  unfold World.step Fleet.act at h
  dsimp only at h
  split at h
  · rename_i hi
    cases hx : w.fleet.find? i with
    | none =>
      rw [hx] at h
      cases h
    | some x =>
      rw [hx] at h
      cases h
      exact ⟨hi, x, rfl, rfl⟩
  · cases h

theorem step_drop {i : Nat} (h : w.step (.drop i) = some v) :
    v = ⟨{ w.fleet with executors := w.fleet.executors.erase i }, w.ledger.release i⟩ := by
  unfold World.step Fleet.drop at h
  cases hx : w.fleet.find? i with
  | none =>
    simp only [hx] at h
    cases h
  | some x =>
    simp only [hx] at h
    cases h
    rfl

/-- what can come of any steps -/
inductive Reachable : World → Prop
  | empty : Reachable .empty
  | step {w v : World} {a : Action} (before : Reachable w) (step : w.step a = some v) : Reachable v

structure Sound (w : World) : Prop where
  ledger : w.ledger.Sound
  owners : ∀ t ∈ w.ledger.issued, t.owner < w.fleet.nextId
  executors : ∀ {i x}, w.fleet.find? i = some x →
    x.id = i ∧ i < w.fleet.nextId ∧ x.Sound ∧ x.Serves w.ledger

theorem sound_empty : empty.Sound :=
  ⟨Ledger.sound_empty, fun _ h => (nomatch h), fun h => (nomatch h)⟩

/-- Nothing was issued under the next number. -/
theorem Sound.issuedBy_nextId (h : w.Sound) : w.ledger.issuedBy w.fleet.nextId = [] :=
  List.filter_eq_nil_iff.mpr fun t ht ho => Nat.ne_of_lt (h.owners t ht) (of_decide_eq_true ho)

theorem Sound.heldBy_nextId (h : w.Sound) : w.ledger.heldBy w.fleet.nextId = [] :=
  List.filter_eq_nil_iff.mpr fun t ht ho =>
    Nat.ne_of_lt (h.owners t (h.ledger.issued_of_held ht)) (of_decide_eq_true ho)

theorem Sound.add (h : w.Sound) {setup : Setup} {x : Executor} {events : List Event}
    (hst : Executor.start w.fleet.nextId setup = .ok (x, events)) :
    Sound { w with fleet := ⟨w.fleet.executors.insert w.fleet.nextId x, w.fleet.nextId + 1⟩ } := by
  obtain ⟨hx, hid, -, hm⟩ := Executor.sound_start hst
  refine ⟨h.ledger, fun t ht => Nat.lt_succ_of_lt (h.owners t ht), fun {i y} hy => ?_⟩
  rw [Fleet.find?, Registry.find?_insert] at hy
  split at hy
  · rename_i hi
    cases hy
    refine ⟨hid.trans hi.symm, by rw [hi]; exact Nat.lt_succ_self _, hx, ?_⟩
    unfold Executor.Serves
    rw [hid, h.issuedBy_nextId, h.heldBy_nextId, hm]
    exact Memory.serves_fresh _
  · obtain ⟨hyi, hlt, hy⟩ := h.executors hy
    exact ⟨hyi, Nat.lt_succ_of_lt hlt, hy⟩

theorem Sound.call (h : w.Sound) {i : Nat} {x : Executor} (hx : w.fleet.find? i = some x)
    {c : Call} {r : Reply c.Value} (hr : x.Effect c r) (hi : ∀ t ∈ c.handles, t ∈ w.ledger.issued) :
    Sound ⟨{ w.fleet with executors := w.fleet.executors.insert i r.executor },
      w.ledger.enter i c r.result⟩ := by
  obtain ⟨hid, hlt, hxs, hserves⟩ := h.executors hx
  subst hid
  refine ⟨hr.enter_sound h.ledger hserves, fun t ht => ?_, fun {j y} hy => ?_⟩
  · rcases hr.owner_of_enter ht with ht | ho
    · exact h.owners t ht
    · rw [ho]
      exact hlt
  · rw [Fleet.find?, Registry.find?_insert] at hy
    split at hy
    · rename_i hj
      cases hy
      exact ⟨hr.id_eq.trans hj.symm, hj ▸ hlt, hr.sound hxs, hr.serves hxs h.ledger hserves hi⟩
    · rename_i hj
      obtain ⟨hyi, hylt, hys, hyserves⟩ := h.executors hy
      refine ⟨hyi, hylt, hys, ?_⟩
      unfold Executor.Serves at hyserves ⊢
      rw [hyi] at hyserves ⊢
      obtain ⟨hissued, hheld⟩ := hr.enter_others (l := w.ledger) hj
      rw [hissued, hheld]
      exact hyserves

theorem Sound.drop (h : w.Sound) (i : Nat) :
    Sound ⟨{ w.fleet with executors := w.fleet.executors.erase i }, w.ledger.release i⟩ := by
  refine ⟨h.ledger.release i, h.owners, fun {j y} hy => ?_⟩
  rw [Fleet.find?, Registry.find?_erase] at hy
  split at hy
  · cases hy
  · rename_i hj
    obtain ⟨hyi, hylt, hys, hyserves⟩ := h.executors hy
    refine ⟨hyi, hylt, hys, ?_⟩
    unfold Executor.Serves at hyserves ⊢
    rw [Ledger.heldBy_release, hyi, if_neg hj, ← hyi]
    exact hyserves

/-- Whatever step a world makes, it stays sound. -/
theorem Sound.step (h : w.Sound) {a : Action} (hs : w.step a = some v) : v.Sound := by
  cases a with
  | add setup =>
    rcases step_add hs with rfl | ⟨x, events, hst, rfl⟩
    · exact h
    · exact h.add hst
  | call i a c =>
    obtain ⟨hi, x, hx, rfl⟩ := step_call hs
    obtain ⟨-, -, hxs, -⟩ := h.executors hx
    exact h.call hx (hxs.perform_effect a c) hi
  | drop i =>
    rw [step_drop hs]
    exact h.drop i

/-- Every reachable world is sound. -/
theorem Reachable.sound (h : w.Reachable) : w.Sound := by
  induction h with
  | empty => exact sound_empty
  | step _ hs ih => exact ih.step hs

/-- Every executor there is knows every handle that was issued. -/
theorem Sound.knows (h : w.Sound) {i : Nat} {x : Executor} (hx : w.fleet.find? i = some x)
    {t : AnyHandle} (ht : t ∈ w.ledger.issued) : x.Knows t.handle := by
  obtain ⟨-, -, -, hs⟩ := h.executors hx
  exact hs.knows h.ledger ht

/-- several steps, one after the other -/
def run (w : World) : List Action → Option World
  | [] => some w
  | a :: as =>
    match w.step a with
    | none => none
    | some v => v.run as

theorem Reachable.run (h : w.Reachable) {as : List Action} (hr : w.run as = some v) : v.Reachable := by
  induction as generalizing w with
  | nil =>
    cases hr
    exact h
  | cons a as ih =>
    rw [World.run] at hr
    cases hs : w.step a with
    | none =>
      rw [hs] at hr
      cases hr
    | some u =>
      rw [hs] at hr
      exact ih (h.step hs) hr

/-! ## a small world -/

/-- one executor, with one allocation of four out of eight bytes -/
def sample : World :=
  (empty.run [.add { Setup.standard with limit := some 8 },
    .call 1 .plain (.allocate .u8 4 .deviceExclusive 0)]).get rfl

def sampleExecutor : Executor := (sample.fleet.find? 1).get rfl

def sampleHandle : Handle .u8 := ⟨1, 4, .deviceExclusive, 1⟩

theorem reachable_sample : sample.Reachable := Reachable.empty.run (Option.some_get _).symm

theorem find?_sample : sample.fleet.find? 1 = some sampleExecutor := (Option.some_get _).symm

end World

end Offload.Accelerator
