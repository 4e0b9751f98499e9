import Offload.Proofs.Accelerator.Step

/-!
# The life of an executor

Nothing is assumed here of the handles that calls are given.

* `Lifecycle.Leads`         ready to faulted, and either to torn down;
* `Executor.run`            calls one after the other;
* `Executor.faults`         the texts of the faults that come back along the way;
* `lifecycle_of_start`      what holds after any calls of a new executor.
-/

namespace Offload.Accelerator

/-! ## states -/

inductive Lifecycle.Leads : Lifecycle → Lifecycle → Prop
  | stay (s : Lifecycle) : Leads s s
  | fault (m : String) : Leads .ready (.faulted m)
  | tearDown (s : Lifecycle) : Leads s .tornDown

namespace Lifecycle

variable {s t u : Lifecycle} {m n : String}

/-- the text of the fault between two states -/
def newFault? : Lifecycle → Lifecycle → Option String
  | ready, faulted m => some m
  | _, _ => none

theorem Leads.trans (h : s.Leads t) (k : t.Leads u) : s.Leads u := by
  cases k with
  | stay _ => exact h
  | fault m =>
    cases h
    exact .fault m
  | tearDown _ => exact .tearDown s

theorem leads_after {α : Type} (o : Outcome α) : ready.Leads (after o) := by
  unfold after
  split
  · exact .fault _
  · exact .stay _

theorem Leads.eq_of_faulted (h : (faulted m).Leads (faulted n)) : m = n := by
  cases h
  rfl

theorem Leads.eq_tornDown (h : tornDown.Leads s) : s = tornDown := by
  cases h <;> rfl

theorem Leads.eq_ready (h : s.Leads ready) : s = ready := by
  cases h
  rfl

end Lifecycle

/-- the text of the fault that comes back -/
def Reply.fault? {α : Type} (r : Reply α) : Option String :=
  match r.result with
  | .error (.error (.deviceFault label text)) => some (Error.deviceFault label text).message
  | _ => none

theorem Reply.fault?_eq_after {α : Type} (r : Reply α) :
    r.fault? = Lifecycle.ready.newFault? (.after r.result) := by
  obtain ⟨x, result, events⟩ := r
  cases result with
  | ok v => rfl
  | error f =>
    cases f with
    | crash c => rfl
    | error err => cases err <;> rfl

namespace Executor

variable {x : Executor}

/-! ## one call -/

section
variable {c : Call} {r : Reply c.Value}

theorem Effect.leads (h : x.Effect c r) : x.state.Leads r.executor.state := by
  cases h with
  | refused _ hd =>
    obtain ⟨err, -, rfl⟩ := hd
    exact .stay _
  | goes hr _ hg =>
    rw [hr, hg.state_eq]
    exact Lifecycle.leads_after _
  | ended _ => exact .tearDown _
  | _ => exact .stay _

theorem fault?_refuse {err : Error} (h : err.kind ≠ .deviceFault) :
    (x.refuse err : Reply c.Value).fault? = none := by
  cases err <;> first | rfl | exact absurd rfl h

/-- A fault comes back exactly from the call that makes the executor faulted, and with the text that is
kept. -/
theorem Effect.fault?_eq (h : x.Effect c r) :
    r.fault? = x.state.newFault? r.executor.state := by
  cases h with
  | @stopped c err hc =>
    unfold checkReady at hc
    rw [show (x.refuse err : Reply c.Value).executor = x from rfl]
    split at hc
    · cases hc
    · rename_i hs
      cases hc
      rw [hs]
      rfl
    · rename_i hs
      cases hc
      rw [hs]
      rfl
  | refused hr hd =>
    obtain ⟨err, he, rfl⟩ := hd
    rw [show (x.refuse err : Reply c.Value).executor = x from rfl, hr]
    refine fault?_refuse fun hk => ?_
    rcases Error.kind_of_refuses he with h | h | h <;> cases h.symm.trans hk
  | goes hr _ hg =>
    rw [hr, hg.state_eq]
    exact Reply.fault?_eq_after r
  | allocated hr _ _ =>
    show none = x.state.newFault? x.state
    rw [hr]
    rfl
  | freed hr _ _ _ =>
    show none = x.state.newFault? x.state
    rw [hr]
    rfl
  | ended _ =>
    show none = x.state.newFault? .tornDown
    cases x.state <;> rfl

end

/-! ## runs -/

def run (x : Executor) : List (Ambient × Call) → Executor
  | [] => x
  | (a, c) :: cs => (x.perform a c).executor.run cs

/-- the texts of all faults that come back, in order -/
def faults (x : Executor) : List (Ambient × Call) → List String
  | [] => []
  | (a, c) :: cs => (x.perform a c).fault?.toList ++ (x.perform a c).executor.faults cs

variable {a : Ambient} {c : Call} {cs : List (Ambient × Call)} {m : String}

theorem faults_cons : x.faults ((a, c) :: cs) =
    (x.perform a c).fault?.toList ++ (x.perform a c).executor.faults cs := rfl

section
variable (hx : x.Sound)
include hx

theorem Sound.perform (a : Ambient) (c : Call) : (x.perform a c).executor.Sound :=
  (hx.perform_effect a c).sound hx

theorem Sound.run (cs : List (Ambient × Call)) : (x.run cs).Sound := by
  induction cs generalizing x with
  | nil => exact hx
  | cons d cs ih => exact ih (hx.perform d.1 d.2)

theorem Sound.leads_run (cs : List (Ambient × Call)) : x.state.Leads (x.run cs).state := by
  induction cs generalizing x with
  | nil => exact .stay _
  | cons d cs ih => exact (hx.perform_effect d.1 d.2).leads.trans (ih (hx.perform d.1 d.2))

/-- Only a ready executor reports faults. -/
theorem Sound.faults_of_not_ready (h : x.state ≠ .ready) (cs : List (Ambient × Call)) :
    x.faults cs = [] := by
  induction cs generalizing x with
  | nil => rfl
  | cons d cs ih =>
    have he := hx.perform_effect d.1 d.2
    have hnext : (x.perform d.1 d.2).executor.state ≠ .ready := by
      intro hr
      have hl := he.leads
      rw [hr] at hl
      exact h hl.eq_ready
    have hnone : (x.perform d.1 d.2).fault? = none := by
      rw [he.fault?_eq]
      unfold Lifecycle.newFault?
      split
      · rename_i hs _
        exact absurd hs h
      · rfl
    rw [faults_cons, hnone, ih (hx.perform d.1 d.2) hnext]
    rfl

/-- An executor is faulted with the text of the first and only fault that came back. -/
theorem Sound.faults_run (hr : x.state = .ready) (h : (x.run cs).state = .faulted m) :
    x.faults cs = [m] := by
  induction cs generalizing x with
  | nil => cases hr.symm.trans h
  | cons d cs ih =>
    have hy := hx.perform d.1 d.2
    have hf := (hx.perform_effect d.1 d.2).fault?_eq
    have hl : (x.perform d.1 d.2).executor.state.Leads (.faulted m) := h ▸ hy.leads_run cs
    rw [hr] at hf
    rw [faults_cons]
    -- still ready, nothing came back yet; faulted, this was the one; torn down, it would not be faulted
    cases hs : (x.perform d.1 d.2).executor.state with
    | ready =>
      rw [hs] at hf
      rw [hf, ih hy hs h]
      rfl
    | faulted n =>
      rw [hs] at hf hl
      have hrest := hy.faults_of_not_ready (by rw [hs]; exact fun h => (nomatch h)) cs
      rw [hf, hrest, hl.eq_of_faulted]
      rfl
    | tornDown =>
      rw [hs] at hl
      cases hl

end

/-! ## refusals by state -/

theorem perform_of_faulted (h : x.state = .faulted m) (a : Ambient) {c : Call}
    (hc : c.isTeardown = false) : x.perform a c = x.refuse (.executorFaulted m) :=
  perform_of_checkReady (by rw [checkReady, h]) a hc

theorem perform_of_tornDown (h : x.state = .tornDown) (a : Ambient) (c : Call) :
    x.perform a c = x.refuse .executorTornDown := by
  cases hc : c.isTeardown with
  | false => exact perform_of_checkReady (by rw [checkReady, h]) a hc
  | true =>
    cases c <;> cases hc
    exact teardown_of_tornDown h

theorem checkReady_of_not_ready (h : x.state ≠ .ready) : ∃ err, x.checkReady = .error err := by
  cases hc : x.checkReady with
  | error err => exact ⟨err, rfl⟩
  | ok u => exact absurd (checkReady_eq_ok_iff.mp hc) h

theorem teardown_eq_ok_iff (a : Ambient) :
    (x.perform a .teardown).result = .ok () ↔ x.state ≠ .tornDown := by
  constructor
  · intro h ht
    rw [perform_of_tornDown ht] at h
    cases h
  · intro h
    exact congrArg (·.result) (teardown_eq h)

/-- **The life of an executor.**  After any calls of a new executor, whatever they are given: its state
only moves on; it is faulted with the text of the one fault that came back; while it is faulted, every
call but the end is refused with that text, and after the end every call is refused, and nothing else
happens; and the end comes from ready and faulted alone, after which nothing is live. -/
theorem lifecycle_of_start {id : Nat} {setup : Setup} {events : List Event}
    (h : start id setup = .ok (x, events)) (cs : List (Ambient × Call)) :
    x.state = .ready ∧
    (∀ ds, (x.run cs).state.Leads ((x.run cs).run ds).state) ∧
    (∀ m, (x.run cs).state = .faulted m → x.faults cs = [m] ∧
      ∀ a c, c.isTeardown = false → (x.run cs).perform a c = (x.run cs).refuse (.executorFaulted m)) ∧
    ((x.run cs).state = .tornDown →
      ∀ a c, (x.run cs).perform a c = (x.run cs).refuse .executorTornDown) ∧
    ((x.run cs).state ≠ .ready → ∀ a e (dst : Target e) (src : Source e) (count : Nat),
      ((x.run cs).copy a dst src count).1 = dst) ∧
    (∀ a, ((x.run cs).perform a .teardown).result = .ok () ↔ (x.run cs).state ≠ .tornDown) ∧
    ∀ a ds, (x.run cs).state ≠ .tornDown →
      let y := ((x.run cs).perform a .teardown).executor.run ds
      y.state = .tornDown ∧ y.memory.count = 0 ∧ y.memory.bytes = 0 := by
  obtain ⟨hx, -, hr, -⟩ := sound_start h
  have hy := hx.run cs
  refine ⟨hr, hy.leads_run, ?_, perform_of_tornDown, ?_, teardown_eq_ok_iff, ?_⟩
  · exact fun m hm => ⟨hx.faults_run hr hm, fun a c hc => perform_of_faulted hm a hc⟩
  · intro hn a e dst src count
    obtain ⟨err, he⟩ := checkReady_of_not_ready hn
    rw [copy_of_checkReady he]
  · intro a ds ht
    have hz := hy.perform a .teardown
    have hend : ((x.run cs).perform a .teardown).executor.state = .tornDown :=
      congrArg (·.executor.state) (teardown_eq ht)
    have hl := hz.leads_run ds
    rw [hend] at hl
    have hdown := hl.eq_tornDown
    exact ⟨hdown, (hz.run ds).empty_of hdown⟩

/-- A kernel that crashes makes the executor faulted, with the text that came back. -/
theorem lifecycle_of_start_standard :
    let cs : List (Ambient × Call) := [(.plain, .allocate .u8 4 .deviceExclusive 0),
      (.plain, .submit (.failing (.crash .wordless)) 8 ⟨1, 4, .deviceExclusive, 1⟩ [] 1), (.plain, .wait)]
    ∃ x events m, start 1 .standard = .ok (x, events) ∧ (x.run cs).state = .faulted m ∧
      x.faults cs = [m] := by
  intro cs
  have h : start 1 .standard = .ok (_, _) := rfl
  obtain ⟨-, -, hfault, -⟩ := lifecycle_of_start h cs
  exact ⟨_, _, _, h, rfl, (hfault _ rfl).1⟩

end Executor

end Offload.Accelerator
