import Offload.Proofs.Accelerator.Check
import Offload.Proofs.Accelerator.World

/-!
# Stale and foreign handles

A handle is a plain value, so it can be used after it was given back, and on an executor that never
issued it.

* `Ledger.Leads`                what was given back is never held again (`Reachable.leads_run`);
* `Sound.step_ledger`           a step issues at most one handle, and that under a new number;
* `Executor.Rejects`            every call that is given the handle is refused;
* `stale_and_foreign_rejected`  handles that were given back and handles of other executors never reach
                                memory.

Numbers are not reused, neither those of executors nor those of allocations: both are counted up from
one, and nothing sets a count back.
-/

namespace Offload.Accelerator

/-! ## what a ledger keeps -/

namespace Ledger

/-- What was issued stays issued, and what is held was held before or is new. -/
structure Leads (l m : Ledger) : Prop where
  issued : ∀ {t}, t ∈ l.issued → t ∈ m.issued
  held : ∀ {t}, t ∈ m.held → t ∈ l.issued → t ∈ l.held

variable {l m n : Ledger} {t : AnyHandle} {i : Nat}

theorem Leads.refl (l : Ledger) : l.Leads l := ⟨fun h => h, fun h _ => h⟩

theorem Leads.trans (h : l.Leads m) (k : m.Leads n) : l.Leads n where
  issued ht := k.issued (h.issued ht)
  held ht hl := h.held (k.held ht (h.issued hl)) hl

/-- A handle that nothing was issued under. -/
def New (l : Ledger) (t : AnyHandle) : Prop := ∀ s ∈ l.issued, s.owner = t.owner → s.id ≠ t.id

theorem leads_issue (h : l.New t) : l.Leads (l.issue t) where
  issued hs := List.mem_cons_of_mem _ hs
  held {s} hs hl := by
    rcases List.mem_cons.mp hs with rfl | hs
    · exact absurd rfl (h s hl rfl)
    · exact hs

theorem leads_of_subset (hi : m.issued = l.issued) (hh : ∀ t ∈ m.held, t ∈ l.held) : l.Leads m where
  issued ht := hi ▸ ht
  held ht _ := hh _ ht

/-- the names of all handles that were ever issued -/
def names (l : Ledger) : List (Nat × Nat) := l.issued.map fun t => (t.owner, t.id)

theorem nodup_names_issue (h : l.names.Nodup) (ht : l.New t) : (l.issue t).names.Nodup := by
  refine List.nodup_cons.mpr ⟨fun hm => ?_, h⟩
  obtain ⟨s, hs, he⟩ := List.mem_map.mp hm
  obtain ⟨ho, hi⟩ := Prod.mk.inj he
  exact ht s hs ho hi

end Ledger

/-! ## what a step enters -/

namespace Executor

variable {x : Executor} {l : Ledger} {c : Call} {r : Reply c.Value} {t : AnyHandle}

/-- A call issues one handle, under the next number, or none. -/
theorem Effect.enter_cases (h : x.Effect c r) :
    (∃ t, l.enter x.id c r.result = l.issue t ∧ t.owner = x.id ∧ t.id = x.memory.nextId) ∨
    ((l.enter x.id c r.result).issued = l.issued ∧
      ∀ t ∈ (l.enter x.id c r.result).held, t ∈ l.held) := by
  cases h with
  | stopped _ =>
    rw [enter_refuse]
    exact .inr ⟨rfl, fun _ ht => ht⟩
  | refused _ hd =>
    rw [hd.enter_eq]
    exact .inr ⟨rfl, fun _ ht => ht⟩
  | goes _ hk _ =>
    rw [Ledger.enter_keepsLive hk]
    exact .inr ⟨rfl, fun _ ht => ht⟩
  | allocated _ _ _ => exact .inl ⟨_, rfl, rfl, rfl⟩
  | freed _ _ _ _ => exact .inr ⟨rfl, fun _ ht => List.mem_of_mem_erase ht⟩
  | ended _ => exact .inr ⟨rfl, fun _ ht => (List.mem_filter.mp ht).1⟩

theorem Effect.owner_of_deallocate {e : Element} {g : Handle e} {r : Reply Unit}
    (h : x.Effect (.deallocate e g) r) (hd : r.result = .ok ()) : g.owner = x.id := by
  cases h with
  | stopped _ => cases hd
  | refused _ hr =>
    obtain ⟨err, -, rfl⟩ := hr
    cases hd
  | goes _ hk _ => cases hk
  | freed _ ho _ _ => exact ho

theorem Effect.name_of_allocate {e : Element} {count alignment : Nat} {space : MemoryClass}
    {r : Reply (Handle e)} (h : x.Effect (.allocate e count space alignment) r) {g : Handle e}
    (ha : r.result = .ok g) : g.owner = x.id ∧ g.id = x.memory.nextId := by
  cases h with
  | stopped _ => cases ha
  | refused _ hr =>
    obtain ⟨err, -, rfl⟩ := hr
    cases ha
  | goes _ hk _ => cases hk
  | allocated _ _ _ =>
    cases ha
    exact ⟨rfl, rfl⟩

/-- The next number counts what was issued; nothing else moves it. -/
theorem Effect.nextId_eq (h : x.Effect c r) (hn : x.memory.nextId = (l.issuedBy x.id).length + 1) :
    r.executor.memory.nextId = ((l.enter x.id c r.result).issuedBy x.id).length + 1 := by
  cases h with
  | stopped _ =>
    rw [enter_refuse]
    exact hn
  | refused _ hd =>
    rw [hd.enter_eq]
    obtain ⟨err, -, rfl⟩ := hd
    exact hn
  | goes _ hk hg => rw [Ledger.enter_keepsLive hk, hg.rewrites.nextId_eq, hn]
  | @allocated e count _ space _ _ _ _ _ =>
    let t : AnyHandle := ⟨e, ⟨x.memory.nextId, count, space, x.id⟩⟩
    have hl : (l.issue t).issuedBy x.id = t :: l.issuedBy x.id :=
      Ledger.issuedBy_issue.trans (if_pos rfl)
    show x.memory.nextId + 1 = ((l.issue t).issuedBy x.id).length + 1
    rw [hl, List.length_cons, hn]
  | freed _ _ _ _ => exact (Memory.nextId_release ..).trans hn
  | ended _ => exact hn

/-- What is not held is not live. -/
theorem Serves.refusal?_of_not_held (hs : x.Serves l) (hl : l.Sound) (ht : t ∈ l.issued)
    (hn : t ∉ l.held) (ho : t.owner = x.id) : x.refusal? (.handle t) = some (.invalidHandle t.id) := by
  have hdead : ¬ x.memory.contains t.id = true := fun hc => hn ((hs.contains_iff hl ht ho).mp hc)
  show (if t.owner = x.id then if x.memory.contains t.id then none else _ else _) = _
  rw [if_pos ho, if_neg hdead]
  rfl

theorem refusal?_of_foreign (ho : t.owner ≠ x.id) :
    x.refusal? (.handle t) = some (.foreignHandle t.id t.owner x.id) := if_neg ho

/-- Every call that is given the handle is refused: with the error, unless the call comes to something
wrong before.  The executor stays as it is, and so does what a copy was to write. -/
def Rejects (x : Executor) (t : AnyHandle) (err : Error) : Prop :=
  ∀ a c, t ∈ c.handles →
    x.perform a c = x.refuse (((c.checksBefore t).findSome? x.refusal?).getD err) ∧
    ∀ e dst src count, c = .copy e dst src count → (x.copy a dst src count).1 = dst

theorem Sound.rejects (hx : x.Sound) (hr : x.state = .ready) {err : Error}
    (h : x.refusal? (.handle t) = some err) : x.Rejects t err := by
  intro a c ht
  refine ⟨hx.perform_of_mem_handles hr a ht h, ?_⟩
  rintro e dst src count rfl
  rw [copy_of_findSome? hr a (findSome?_of_mem (Call.handle_mem_checks ht) h)]

end Executor

/-- the executor that a step calls or lets go -/
def Action.subject? : Action → Option Nat
  | add _ => none
  | call i _ _ | drop i => some i

namespace World

variable {w v : World} {a : Action} {i : Nat} {x : Executor} {t : AnyHandle}

/-- A step issues one new handle or none. -/
theorem Sound.step_ledger (h : w.Sound) (hs : w.step a = some v) :
    (∃ t, v.ledger = w.ledger.issue t ∧ w.ledger.New t) ∨
    (v.ledger.issued = w.ledger.issued ∧ ∀ t ∈ v.ledger.held, t ∈ w.ledger.held) := by
  cases a with
  | add setup =>
    rcases step_add hs with rfl | ⟨x, events, -, rfl⟩ <;> exact .inr ⟨rfl, fun _ ht => ht⟩
  | call i a c =>
    obtain ⟨-, x, hx, rfl⟩ := step_call hs
    obtain ⟨rfl, -, hxs, hserves⟩ := h.executors hx
    rcases (hxs.perform_effect a c).enter_cases (l := w.ledger) with ⟨t, he, ho, hid⟩ | hkeep
    · refine .inl ⟨t, he, fun s hsi hso => ?_⟩
      have hlt := hserves.numbered s (Ledger.mem_issuedBy.mpr ⟨hsi, hso.trans ho⟩)
      rw [hid]
      exact Nat.ne_of_lt hlt
    · exact .inr hkeep
  | drop i =>
    rw [step_drop hs]
    exact .inr ⟨rfl, fun _ ht => (List.mem_filter.mp ht).1⟩

theorem Sound.leads_step (h : w.Sound) (hs : w.step a = some v) : w.ledger.Leads v.ledger := by
  rcases h.step_ledger hs with ⟨t, he, hn⟩ | ⟨hi, hh⟩
  · exact he ▸ Ledger.leads_issue hn
  · exact Ledger.leads_of_subset hi hh

/-- What was given back is never held again. -/
theorem Reachable.leads_run (h : w.Reachable) {as : List Action} (hr : w.run as = some v) :
    w.ledger.Leads v.ledger := by
  induction as generalizing w with
  | nil =>
    cases hr
    exact .refl _
  | cons a as ih =>
    rw [World.run] at hr
    cases hs : w.step a with
    | none =>
      rw [hs] at hr
      cases hr
    | some u =>
      rw [hs] at hr
      exact (h.sound.leads_step hs).trans (ih (h.step hs) hr)

/-- No name is ever given to two handles. -/
theorem Reachable.nodup_names (h : w.Reachable) : w.ledger.names.Nodup := by
  induction h with
  | empty => exact List.nodup_nil
  | step before hs ih =>
    rcases before.sound.step_ledger hs with ⟨t, he, hn⟩ | ⟨hi, -⟩
    · rw [he]
      exact Ledger.nodup_names_issue ih hn
    · unfold Ledger.names
      rw [hi]
      exact ih

/-- The next number of an executor counts the handles that it issued. -/
theorem Reachable.nextId_eq (h : w.Reachable) (hx : w.fleet.find? i = some x) :
    x.memory.nextId = (w.ledger.issuedBy i).length + 1 := by
  induction h generalizing i x with
  | empty => cases hx
  | @step w v a before hs ih =>
    have hw := before.sound
    cases a with
    | add setup =>
      rcases step_add hs with rfl | ⟨y, events, hst, rfl⟩
      · exact ih hx
      · rw [Fleet.find?, Registry.find?_insert] at hx
        split at hx
        · rename_i hi
          cases hx
          obtain ⟨-, -, -, hm⟩ := Executor.sound_start hst
          rw [hm, hi, hw.issuedBy_nextId]
          rfl
        · exact ih hx
    | call j b c =>
      obtain ⟨-, y, hy, rfl⟩ := step_call hs
      obtain ⟨rfl, -, hys, -⟩ := hw.executors hy
      have heff := hys.perform_effect b c
      rw [Fleet.find?, Registry.find?_insert] at hx
      split at hx
      · rename_i hi
        cases hx
        rw [hi]
        exact heff.nextId_eq (ih hy)
      · rename_i hi
        rw [(heff.enter_others (l := w.ledger) hi).1]
        exact ih hx
    | drop j =>
      rw [step_drop hs] at hx
      rw [step_drop hs]
      rw [Fleet.find?, Registry.find?_erase] at hx
      split at hx
      · cases hx
      · exact ih hx

/-- Other executors than the one that a step is about stay as they are. -/
theorem Sound.find?_step (h : w.Sound) (hs : w.step a = some v) (hi : a.subject? ≠ some i)
    (hx : w.fleet.find? i = some x) : v.fleet.find? i = some x := by
  cases a with
  | add setup =>
    rcases step_add hs with rfl | ⟨y, events, -, rfl⟩
    · exact hx
    · obtain ⟨-, hlt, -⟩ := h.executors hx
      exact (Registry.find?_insert ..).trans ((if_neg (Nat.ne_of_lt hlt)).trans hx)
  | call j a c =>
    obtain ⟨-, y, -, rfl⟩ := step_call hs
    have hij : i ≠ j := fun hij => hi (congrArg some hij.symm)
    exact (Registry.find?_insert ..).trans ((if_neg hij).trans hx)
  | drop j =>
    rw [step_drop hs]
    have hij : i ≠ j := fun hij => hi (congrArg some hij.symm)
    exact (Registry.find?_erase ..).trans ((if_neg hij).trans hx)

/-- What was given back was issued and is not held any more. -/
theorem Sound.deallocate_step (h : w.Sound) (hx : w.fleet.find? i = some x) {b : Ambient} {e : Element}
    {g : Handle e} (hd : (x.deallocate g).result = .ok ())
    (hs : w.step (.call i b (.deallocate e g)) = some v) :
    g.owner = i ∧ (⟨e, g⟩ : AnyHandle) ∈ v.ledger.issued ∧ (⟨e, g⟩ : AnyHandle) ∉ v.ledger.held := by
  obtain ⟨hi, y, hy, rfl⟩ := step_call hs
  cases hx.symm.trans hy
  obtain ⟨hxi, -, hxs, -⟩ := h.executors hx
  have hresult : (x.perform b (.deallocate e g)).result = .ok () := hd
  have howner := (hxs.perform_effect b (.deallocate e g)).owner_of_deallocate hresult
  rw [hresult]
  exact ⟨howner.trans hxi, hi _ List.mem_cons_self, h.ledger.nodup.not_mem_erase⟩

/-- **Stale and foreign handles never reach memory.**  No two handles have one name, and a handle is
named after the executor that issues it.  Whatever is done after a handle was given back, a call that is
given it is refused for it, and so is a call that is given a handle of another executor, even if the
number means something here; unless the call comes to something wrong before.  What is done with one
executor does not change the others. -/
theorem stale_and_foreign_rejected (hw : w.Reachable) :
    (w.ledger.issued.map fun t => (t.owner, t.id)).Nodup ∧
    (∀ i x a e count space alignment h, w.fleet.find? i = some x →
      (x.allocate a e count space alignment).result = .ok h →
        h.owner = i ∧ h.id = (w.ledger.issuedBy i).length + 1) ∧
    (∀ i x a e (h : Handle e) as v y, w.fleet.find? i = some x →
      (x.deallocate h).result = .ok () → w.run (.call i a (.deallocate e h) :: as) = some v →
      v.fleet.find? i = some y → y.state = .ready → y.Rejects ⟨e, h⟩ (.invalidHandle h.id)) ∧
    (∀ i j x t, w.fleet.find? i = some x → x.state = .ready → t ∈ w.ledger.issuedBy j → j ≠ i →
      x.Rejects t (.foreignHandle t.id j i)) ∧
    ∀ a v i x, w.step a = some v → a.subject? ≠ some i → w.fleet.find? i = some x →
      v.fleet.find? i = some x := by
  have hs := hw.sound
  refine ⟨hw.nodup_names, ?_, ?_, ?_, fun a v i x => hs.find?_step⟩
  · intro i x a e count space alignment h hx hok
    obtain ⟨hxi, -, hxs, -⟩ := hs.executors hx
    obtain ⟨ho, hid⟩ := (hxs.perform_effect a (.allocate e count space alignment)).name_of_allocate hok
    exact ⟨ho.trans hxi, hid.trans (hw.nextId_eq hx)⟩
  · intro i x a e h as v y hx hd hrun hy hr
    rw [run] at hrun
    cases hstep : w.step (.call i a (.deallocate e h)) with
    | none =>
      rw [hstep] at hrun
      cases hrun
    | some u =>
      rw [hstep] at hrun
      have hu := hw.step hstep
      obtain ⟨howner, hissued, hnot⟩ := hs.deallocate_step hx hd hstep
      have hleads := hu.leads_run hrun
      have hv := (hu.run hrun).sound
      obtain ⟨hyi, -, hys, hserves⟩ := hv.executors hy
      have hdead := hserves.refusal?_of_not_held hv.ledger (hleads.issued hissued)
        (fun hh => hnot (hleads.held hh hissued)) (howner.trans hyi.symm)
      exact hys.rejects hr hdead
  · intro i j x t hx hr ht hji
    obtain ⟨-, htj⟩ := Ledger.mem_issuedBy.mp ht
    obtain ⟨hxi, -, hxs, -⟩ := hs.executors hx
    have hne : t.owner ≠ x.id := by
      rw [htj, hxi]
      exact hji
    have hrej := hxs.rejects hr (Executor.refusal?_of_foreign hne)
    rw [htj, hxi] at hrej
    exact hrej

/-- the small world with a second executor, which has issued the same number -/
def rivals : World :=
  (sample.run [.add .standard, .call 2 .plain (.allocate .u8 4 .hostVisible 0)]).get rfl

/-- the same after the first executor has given back what it allocated and allocated again -/
def rivalsLater : World :=
  (rivals.run [.call 1 .plain (.deallocate .u8 sampleHandle),
    .call 1 .plain (.allocate .u8 4 .deviceExclusive 0)]).get rfl

theorem reachable_rivals : rivals.Reachable := reachable_sample.run (Option.some_get _).symm

/-- The first executor does not copy from what was given back, though it has allocated again, and the
second does not read what the first one calls by a number that both know. -/
theorem stale_and_foreign_rejected_rivals :
    rivals.Reachable ∧
    (∃ x y, rivals.fleet.find? 1 = some x ∧ (x.deallocate sampleHandle).result = .ok () ∧
      rivalsLater.fleet.find? 1 = some y ∧ y.state = .ready ∧ y.memory.contains 2 = true ∧
      y.perform .plain (.copy .u8 (.device ⟨2, 4, .deviceExclusive, 1⟩) (.device sampleHandle) 9) =
        y.refuse (.invalidHandle 1)) ∧
    ∃ x, rivals.fleet.find? 2 = some x ∧ x.state = .ready ∧ x.memory.contains 1 = true ∧
      x.perform .plain (.read .u8 sampleHandle) = x.refuse (.foreignHandle 1 1 2) := by
  obtain ⟨-, -, hstale, hforeign, -⟩ := stale_and_foreign_rejected reachable_rivals
  have hfirst : rivals.fleet.find? 1 = some ((rivals.fleet.find? 1).get rfl) := (Option.some_get _).symm
  have hlater : rivalsLater.fleet.find? 1 = some ((rivalsLater.fleet.find? 1).get rfl) :=
    (Option.some_get _).symm
  have hsecond : rivals.fleet.find? 2 = some ((rivals.fleet.find? 2).get rfl) := (Option.some_get _).symm
  refine ⟨reachable_rivals, ⟨_, _, hfirst, rfl, hlater, rfl, rfl, ?_⟩, _, hsecond, rfl, rfl, ?_⟩
  · exact (hstale 1 _ .plain .u8 sampleHandle _ _ _ hfirst rfl (Option.some_get _).symm hlater rfl
      .plain _ (List.mem_cons_of_mem _ List.mem_cons_self)).1
  · exact (hforeign 2 1 _ ⟨.u8, sampleHandle⟩ hsecond rfl (by decide) (by decide) .plain _
      List.mem_cons_self).1

end World

end Offload.Accelerator
