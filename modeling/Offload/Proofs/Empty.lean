import Offload.Host.Executor
import Offload.Proofs.Accelerator.Check

/-!
# Work on no elements

A copy or a submission of no elements is looked at like any other.  Then there is nothing to do.

* `Error.rejects`      what styles, types and handles are rejected with;
* `Executor.inspect`   what comes of looking at these alone, on a host and on an accelerator;
* `submit_none`, `copy_none`
                       what is left of an operation: the result of that look, and nothing else.

`no_elements_no_trace` collects them.  The one exception is the copy from host slice to host slice without
an accelerator, which is recorded like a copy of something.
-/

namespace Offload

/-- what a style, a type or a handle is rejected with -/
def Error.rejects : Error → Bool
  | unsupportedVectorLength .. | typeMismatch .. | invalidHandle .. | foreignHandle ..
  | aliasedBuffers .. => true
  | _ => false

theorem Table.rejects_of_resolveWidth {t : Table} {e : Element} {width : Nat} {err : Error}
    (h : t.resolveWidth e width = .error err) : err.rejects = true := by
  unfold Table.resolveWidth at h
  split at h
  · cases h
  · split at h <;> cases h
    rfl

theorem Table.rejects_of_resolve {t : Table} {e : Element} {lanes : Nat} {err : Error}
    (h : t.resolve e lanes = .error err) : err.rejects = true := by
  unfold Table.resolve at h
  split at h
  · cases h
  · split at h
    · exact rejects_of_resolveWidth h
    · cases h
      rfl

/-- All slices are long enough for nothing. -/
theorem Kernel.check_none (k : Kernel) (s : Style) (output : Nat) (inputs : List Nat) :
    k.check s output inputs 0 =
      if s.element ≠ k.input then .error (.typeMismatch k.input.name s.element.name) else .ok () := by
  have hfind : (output :: inputs).find? (· < 0) = none :=
    List.find?_eq_none.mpr fun len _ => by simp
  unfold Kernel.check
  rw [hfind]

/-! ## on a host -/

namespace Host

/-- The destination stays, but a transfer of no bytes is recorded. -/
theorem copy_none {e : Element} (a : Ambient) (dst src : List (Lane e)) :
    copy a dst src 0 =
      (dst, .ok (), if a.settings.records a.work then [.measure (.transfer 0 "H2H" a.work)] else []) := by
  unfold copy Trace.measured
  dsimp only
  rw [if_neg (Nat.not_lt_zero _), List.take_zero, Slice.put_nil_right, Nat.zero_mul]
  rfl

namespace Executor

variable (x : Executor)

/-- what a submission of no elements looks at -/
def inspect (e : Element) (s : Style) : Except Error Unit :=
  match x.checkStyle s with
  | .error err => .error err
  | .ok () => if s.element ≠ e then .error (.typeMismatch e.name s.element.name) else .ok ()

theorem check_none (k : Kernel) (s : Style) (output : Nat) (inputs : List Nat) :
    x.check k s output inputs 0 = x.inspect k.input s := by
  unfold check inspect
  cases x.checkStyle s with
  | error err => rfl
  | ok u => exact k.check_none s output inputs

theorem rejects_of_inspect {e : Element} {s : Style} {err : Error} (h : x.inspect e s = .error err) :
    err.rejects = true := by
  unfold inspect at h
  cases hs : x.checkStyle s with
  | error er =>
    rw [hs] at h
    cases h
    unfold checkStyle at hs
    split at hs
    · cases hs
    · split at hs
      · cases hs
        rfl
      · split at hs <;> cases hs
        rfl
  | ok u =>
    rw [hs] at h
    dsimp only at h
    split at h <;> cases h
    rfl

theorem rejects_of_resolve_bind {e : Element} {lanes : Nat} {err : Error}
    (h : (x.table.resolve e lanes).bind (x.inspect e) = .error err) : err.rejects = true := by
  cases hs : x.table.resolve e lanes with
  | ok s =>
    rw [hs] at h
    exact x.rejects_of_inspect h
  | error er =>
    rw [hs] at h
    cases h
    exact Table.rejects_of_resolve hs

section
variable (a : Ambient) (k : Kernel) (output : List (Lane k.output)) (inputs : List (List (Lane k.input)))

theorem submit_none (s : Style) :
    x.submit a k s output inputs 0 = ⟨output, .ofExcept (x.inspect k.input s), []⟩ := by
  unfold submit
  rw [check_none]
  cases x.inspect k.input s <;> rfl

theorem submitLanes_none (lanes : Nat) :
    x.submitLanes a k lanes output inputs 0 =
      ⟨output, .ofExcept ((x.table.resolve k.input lanes).bind (x.inspect k.input)), []⟩ := by
  unfold submitLanes
  cases x.table.resolve k.input lanes with
  | error err => rfl
  | ok s => exact x.submit_none a k output inputs s

end

end Executor

end Host

/-! ## on an accelerator -/

namespace Accelerator.Executor

variable {x : Executor} {e : Element}

theorem rejects_of_refusal? {c : Check} {err : Error} (h : x.refusal? c = some err) :
    err.rejects = true := by
  cases c with
  | width e bits =>
    rw [refusal?] at h
    split at h <;> cases h
    rfl
  | handle t =>
    rw [refusal?] at h
    split at h
    · split at h <;> cases h
      rfl
    · cases h
      rfl
  | apart input output =>
    rw [refusal?] at h
    split at h <;> cases h
    rfl

/-- what comes of all looks of a call -/
def inspect (x : Executor) (c : Call) : Except Error Unit := verdict (c.checks.findSome? x.refusal?)

theorem rejects_of_inspect {c : Call} {err : Error} (h : x.inspect c = .error err) :
    err.rejects = true := by
  unfold inspect at h
  cases hf : c.checks.findSome? x.refusal? with
  | none =>
    rw [hf] at h
    cases h
  | some er =>
    rw [hf] at h
    cases h
    obtain ⟨look, -, hlook⟩ := List.exists_of_findSome?_eq_some hf
    exact rejects_of_refusal? hlook

section
variable (hr : x.state = .ready)
include hr

theorem checkCopy_none (dst : Target e) (src : Source e) :
    x.checkCopy dst src 0 = x.inspect (.copy e dst src 0) := by
  unfold inspect
  cases h : (Call.copy e dst src 0).checks.findSome? x.refusal? with
  | some err => exact checkCopy_of_findSome? hr h
  | none =>
    rw [Call.checks_copy, List.findSome?_append, Option.or_eq_none_iff] at h
    unfold checkCopy
    rw [checkReady_of_ready hr, checkTarget_eq_verdict, checkSource_eq_verdict, h.1, h.2]
    exact if_neg (Nat.not_lt_zero _)

theorem checkSubmit_none (k : Kernel) (width : Nat) (output : Handle k.output)
    (inputs : List (Handle k.input)) :
    (x.checkSubmit k width output inputs 0).map (fun _ => ()) =
      x.inspect (.submit k width output inputs 0) := by
  unfold inspect
  cases h : (Call.submit k width output inputs 0).checks.findSome? x.refusal? with
  | some err =>
    rw [checkSubmit_of_findSome? hr h]
    rfl
  | none =>
    unfold Call.checks at h
    rw [List.findSome?_cons, List.findSome?_cons, refusal?_width] at h
    unfold checkSubmit
    rw [checkReady_of_ready hr, checkLive_eq_verdict, checkInputs_eq_verdict]
    cases hs : Style.accelerator k.input width with
    | error er =>
      rw [hs] at h
      cases h
    | ok s =>
      have hk : s.element = k.input := (Style.ofWidth_eq_ok_iff.mp hs).1
      rw [hs] at h
      cases ho : x.refusal? (.handle ⟨k.output, output⟩) with
      | some er =>
        rw [ho] at h
        cases h
      | none =>
        rw [ho] at h
        dsimp only at h
        rw [h]
        simp only [verdict, Kernel.check_none, if_neg (not_not_intro hk)]
        rfl

variable (a : Ambient)

/-- The first look that is wrong is the result, and the target stays. -/
theorem copy_none (dst : Target e) (src : Source e) :
    x.copy a dst src 0 = (dst, ⟨x, .ofExcept (x.inspect (.copy e dst src 0)), []⟩) := by
  rw [← checkCopy_none hr]
  cases hc : x.checkCopy dst src 0 with
  | error err => exact copy_of_error a hc
  | ok u => exact copy_zero a hc

theorem submit_none (k : Kernel) (width : Nat) (output : Handle k.output)
    (inputs : List (Handle k.input)) :
    x.submit a k width output inputs 0 =
      ⟨x, .ofExcept (x.inspect (.submit k width output inputs 0)), []⟩ := by
  rw [← checkSubmit_none hr]
  cases hc : x.checkSubmit k width output inputs 0 with
  | error err => exact submit_of_error a hc
  | ok s => exact submit_zero a hc

end

end Accelerator.Executor

/-! ## all operations -/

/-- **Without elements nothing is left behind.**  A submission or a copy is then told by its style, its type
and its handles alone: it is rejected for one of these or answers `ok`.  What a kernel would do makes no
difference, executors and outputs stay as they are, and nothing is logged.  A copy between host slices that
no accelerator makes has no such exit: nothing is copied, but a transfer of no bytes is recorded wherever
transfers that take so long are. -/
theorem no_elements_no_trace (x : Host.Executor) {y : Accelerator.Executor} (hy : y.state = .ready)
    (a : Ambient) :
    (∀ (k : Kernel) (output : List (Lane k.output)) (inputs : List (List (Lane k.input))),
      (∀ s, x.submit a k s output inputs 0 = ⟨output, .ofExcept (x.inspect k.input s), []⟩) ∧
      (∀ lanes, x.submitLanes a k lanes output inputs 0 =
        ⟨output, .ofExcept ((x.table.resolve k.input lanes).bind (x.inspect k.input)), []⟩) ∧
      x.submitWidest a k output inputs 0 =
        ⟨output, .ofExcept (x.inspect k.input (x.table.widest k.input)), []⟩) ∧
    (∀ (k : Kernel) width output inputs, y.submit a k width output inputs 0 =
      ⟨y, .ofExcept (y.inspect (.submit k width output inputs 0)), []⟩) ∧
    (∀ e (dst : Accelerator.Target e) (src : Accelerator.Source e), y.copy a dst src 0 =
      (dst, ⟨y, .ofExcept (y.inspect (.copy e dst src 0)), []⟩)) ∧
    (∀ (k : Kernel) apply length_apply,
      let j : Kernel := { k with apply := apply, length_apply := length_apply }
      (∀ s output inputs, x.submit a j s output inputs 0 = x.submit a k s output inputs 0) ∧
      ∀ width output inputs, y.submit a j width output inputs 0 = y.submit a k width output inputs 0) ∧
    (∀ e s err, x.inspect e s = .error err → err.rejects = true) ∧
    (∀ e lanes err, (x.table.resolve e lanes).bind (x.inspect e) = .error err → err.rejects = true) ∧
    (∀ c err, y.inspect c = .error err → err.rejects = true) ∧
    ∀ e (dst src : List (Lane e)), Host.copy a dst src 0 =
      (dst, .ok (), if a.settings.records a.work then [.measure (.transfer 0 "H2H" a.work)] else []) := by
  refine ⟨fun k output inputs => ⟨?_, ?_, ?_⟩, ?_, ?_, fun k apply length_apply => ⟨?_, ?_⟩, ?_, ?_, ?_, ?_⟩
  · exact x.submit_none a k output inputs
  · exact x.submitLanes_none a k output inputs
  · exact x.submit_none a k output inputs _
  · exact Accelerator.Executor.submit_none hy a
  · exact fun e => Accelerator.Executor.copy_none hy a
  · intro s output inputs
    rw [x.submit_none a k]
    exact x.submit_none a _ output inputs s
  · intro width output inputs
    rw [Accelerator.Executor.submit_none hy a k]
    exact Accelerator.Executor.submit_none hy a _ width output inputs
  · exact fun e s err => x.rejects_of_inspect
  · exact fun e lanes err => x.rejects_of_resolve_bind
  · exact fun c err => Accelerator.Executor.rejects_of_inspect
  · exact fun e => Host.copy_none a

/-- A kernel that crashes is not asked. -/
theorem no_elements_no_crash :
    let y := ((Accelerator.Executor.start 1 .standard).toOption.get rfl).1
    let z := (y.allocate .plain .u8 4 .deviceExclusive 0).executor
    z.state = .ready ∧ z.submit .plain (.failing (.crash .wordless)) 8 ⟨1, 4, .deviceExclusive, 1⟩ [] 0 =
      ⟨z, .ok (), []⟩ := by
  intro y z
  have hz : z.state = .ready := rfl
  obtain ⟨-, hsubmit, -⟩ := no_elements_no_trace ⟨.scalarOnly, 1⟩ hz .plain
  exact ⟨hz, hsubmit (.failing (.crash .wordless)) 8 ⟨1, 4, .deviceExclusive, 1⟩ []⟩

/-- A copy of no elements from host slice to host slice leaves a record. -/
theorem empty_copy_recorded :
    let dst : List (Lane .u8) := [1]
    Host.copy .plain dst [2] 0 = (dst, .ok (), [.measure (.transfer 0 "H2H" 0)]) ∧
      (Host.copy .plain dst [2] 0).2.2 ≠ [] := by
  intro dst
  have hcopy : Host.copy .plain dst [2] 0 = (dst, .ok (), [.measure (.transfer 0 "H2H" 0)]) := rfl
  refine ⟨hcopy, ?_⟩
  rw [hcopy]
  exact List.cons_ne_nil _ _

end Offload
