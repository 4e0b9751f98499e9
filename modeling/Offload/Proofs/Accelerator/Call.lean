import Offload.Proofs.Accelerator.Handle

/-!
# Calls of an executor

* `Call`, `perform`    every public operation with all that it is given;
* `AnyHandle`          a handle with its element type; `Call.handles` are those that a call is given;
* `Call.label?`        the label under which a call is queued;
* `Error.refuses`      what a ready executor refuses a call with before anything happens.

The checks of a ready executor refuse with nothing else (`refuses_of_checkCopy`,
`refuses_of_checkSubmit`), and what they let through is said by `checkLive_eq_ok_iff`,
`checkCopy_eq_ok_iff` and `checkSubmit_eq_ok_iff`.
-/

namespace Offload

/-- what a ready executor refuses a call with before anything happens -/
def Error.refuses : Error → Bool
  | unsupportedVectorLength .. | allocationFailed .. | invalidAlignment .. | invalidHandle ..
  | foreignHandle .. | wrongMemoryClass .. | bufferOutOfBounds .. | aliasedBuffers .. => true
  | _ => false

theorem Error.kind_of_refuses {err : Error} (h : err.refuses = true) :
    err.kind = .configuration ∨ err.kind = .resourceExhaustion ∨ err.kind = .contractViolation := by
  cases err <;>
    first
    | exact .inl rfl
    | exact .inr (.inl rfl)
    | exact .inr (.inr rfl)
    | cases h

/-- The allocator grants everything, and nothing takes time. -/
def Ambient.plain : Ambient := ⟨fun _ _ => true, .initial, 0, 0⟩

/-- a kernel that fails at once -/
def Kernel.failing (f : Failure Error) : Kernel where
  name := "failing"
  input := .u8
  output := .u8
  apply _ out _ _ := ⟨out, .error f, []⟩
  length_apply _ _ _ _ := rfl

namespace Accelerator

/-! ## calls -/

/-- a call of an executor with all that it is given; a change in place can give up half-way -/
inductive Call : Type 1 where
  | allocate (e : Element) (count : Nat) (space : MemoryClass) (alignment : Nat)
  | deallocate (e : Element) (h : Handle e)
  | copy (e : Element) (dst : Target e) (src : Source e) (count : Nat)
  | submit (k : Kernel) (width : Nat) (output : Handle k.output) (inputs : List (Handle k.input))
      (count : Nat)
  | read (e : Element) (h : Handle e)
  | update (e : Element) (α : Type) (h : Handle e)
      (change : List (Lane e) → List (Lane e) × Except Crash α)
  | wait
  | teardown

/-- a handle on elements of some type -/
structure AnyHandle where
  element : Element
  handle : Handle element
  deriving DecidableEq, Repr

namespace Call

/-- what a call answers -/
def Value : Call → Type
  | allocate e .. => Handle e
  | read e _ => List (Lane e)
  | update _ α .. => α
  | _ => Unit

/-- the handles that a call is given -/
def handles : Call → List AnyHandle
  | deallocate e h | read e h | update e _ h _ => [⟨e, h⟩]
  | copy e dst src _ =>
    (match dst with | .host _ => [] | .device h => [⟨e, h⟩]) ++
      (match src with | .host _ => [] | .device h => [⟨e, h⟩])
  | submit k _ output inputs _ => ⟨k.output, output⟩ :: inputs.map (⟨k.input, ·⟩)
  | _ => []

theorem forall_handles_copy {P : AnyHandle → Prop} {e : Element} {dst : Target e} {src : Source e}
    {count : Nat} (h : ∀ t ∈ (copy e dst src count).handles, P t) :
    (∀ g, dst = .device g → P ⟨e, g⟩) ∧ ∀ g, src = .device g → P ⟨e, g⟩ := by
  constructor
  · rintro g rfl
    exact h ⟨e, g⟩ (List.mem_append_left _ List.mem_cons_self)
  · rintro g rfl
    exact h ⟨e, g⟩ (List.mem_append_right _ List.mem_cons_self)

theorem forall_handles_submit {P : AnyHandle → Prop} {k : Kernel} {width : Nat}
    {output : Handle k.output} {inputs : List (Handle k.input)} {count : Nat}
    (h : ∀ t ∈ (submit k width output inputs count).handles, P t) :
    P ⟨k.output, output⟩ ∧ ∀ g ∈ inputs, P ⟨k.input, g⟩ :=
  ⟨h _ List.mem_cons_self, fun g hg => h ⟨k.input, g⟩ (List.mem_cons_of_mem _ (List.mem_map_of_mem hg))⟩

def isSubmit : Call → Bool
  | submit .. => true
  | _ => false

def isUpdate : Call → Bool
  | update .. => true
  | _ => false

def isTeardown : Call → Bool
  | teardown => true
  | _ => false

/-- the label of a copy on the queue, where one between slices of the host is not to be found -/
def copyLabel? {e : Element} : Target e → Source e → Option String
  | .host _, .host _ => none
  | .device _, .host _ => some "copy_h2d"
  | .host _, .device _ => some "copy_d2h"
  | .device _, .device _ => some "copy_d2d"

/-- the direction of a copy in records -/
def copyDirection {e : Element} : Target e → Source e → String
  | .host _, .host _ => "H2H"
  | .device _, .host _ => "H2D"
  | .host _, .device _ => "D2H"
  | .device _, .device _ => "D2D"

/-- the label of a call on the queue, if it is one that the queue runs -/
def label? : Call → Option String
  | copy _ dst src _ => copyLabel? dst src
  | submit k .. => some s!"kernel:{k.name}"
  | wait => some "wait"
  | _ => none

/-- calls that leave the same allocations live -/
def keepsLive : Call → Bool
  | copy .. | submit .. | read .. | update .. | wait => true
  | _ => false

end Call

namespace Executor

variable {e : Element} {x : Executor}

def perform (x : Executor) (a : Ambient) : (c : Call) → Reply c.Value
  | .allocate e count space alignment => x.allocate a e count space alignment
  | .deallocate _ h => x.deallocate h
  | .copy _ dst src count => (x.copy a dst src count).2
  | .submit k width output inputs count => x.submit a k width output inputs count
  | .read _ h => x.readVisible h
  | .update _ _ h change => x.updateVisible h fun xs => ((change xs).1, (change xs).2.mapError .crash)
  | .wait => x.wait
  | .teardown => x.teardown

/-! ## checks -/

theorem checkReady_of_ready (h : x.state = .ready) : x.checkReady = .ok () := by
  unfold checkReady
  rw [h]

theorem checkReady_eq_ok_iff : x.checkReady = .ok () ↔ x.state = .ready := by
  refine ⟨fun h => ?_, checkReady_of_ready⟩
  unfold checkReady at h
  split at h
  · assumption
  · cases h
  · cases h

theorem checkOwner_eq (x : Executor) (h : Handle e) :
    x.checkOwner h =
      if h.owner = x.id then .ok () else .error (.foreignHandle h.id h.owner x.id) := by
  unfold checkOwner
  by_cases ho : h.owner = x.id
  · rw [if_pos ho, if_neg (not_not_intro ho)]
  · rw [if_neg ho, if_pos ho]

theorem checkLive_eq (x : Executor) (h : Handle e) :
    x.checkLive h =
      if h.owner = x.id then
        if x.memory.contains h.id then .ok () else .error (.invalidHandle h.id)
      else .error (.foreignHandle h.id h.owner x.id) := by
  unfold checkLive
  rw [checkOwner_eq]
  by_cases ho : h.owner = x.id
  · rw [if_pos ho, if_pos ho]
  · rw [if_neg ho, if_neg ho]

theorem checkLive_eq_ok_iff {h : Handle e} :
    x.checkLive h = .ok () ↔ h.owner = x.id ∧ x.memory.contains h.id = true := by
  rw [checkLive_eq]
  by_cases ho : h.owner = x.id
  · rw [if_pos ho]
    by_cases hc : x.memory.contains h.id = true
    · rw [if_pos hc]
      exact ⟨fun _ => ⟨ho, hc⟩, fun _ => rfl⟩
    · rw [if_neg hc]
      exact ⟨fun h => (nomatch h), fun h => absurd h.2 hc⟩
  · rw [if_neg ho]
    exact ⟨fun h => (nomatch h), fun h => absurd h.1 ho⟩

theorem refuses_of_checkLive {h : Handle e} {err : Error} (hc : x.checkLive h = .error err) :
    err.refuses = true := by
  rw [checkLive_eq] at hc
  split at hc
  · split at hc
    · cases hc
    · cases hc
      rfl
  · cases hc
    rfl

theorem refuses_of_checkVisible {h : Handle e} {err : Error} (hc : x.checkVisible h = .error err) :
    err.refuses = true := by
  unfold checkVisible at hc
  cases hl : x.checkLive h with
  | error er =>
    rw [hl] at hc
    cases hc
    exact refuses_of_checkLive hl
  | ok u =>
    simp only [hl] at hc
    split at hc
    · cases hc
    · cases hc
      rfl

theorem checkLive_of_checkVisible {h : Handle e} (hc : x.checkVisible h = .ok ()) :
    x.checkLive h = .ok () := by
  unfold checkVisible at hc
  cases hl : x.checkLive h with
  | error er =>
    rw [hl] at hc
    cases hc
  | ok u => rfl

theorem refuses_of_checkInputs {output : Nat} {inputs : List (Handle e)} {err : Error}
    (hc : x.checkInputs output inputs = .error err) : err.refuses = true := by
  induction inputs with
  | nil => cases hc
  | cons h hs ih =>
    rw [checkInputs] at hc
    cases hl : x.checkLive h with
    | error er =>
      rw [hl] at hc
      cases hc
      exact refuses_of_checkLive hl
    | ok u =>
      simp only [hl] at hc
      split at hc
      · cases hc
        rfl
      · exact ih hc

/-- Every input is live, and none is the output. -/
theorem checkInputs_eq_ok_iff {output : Nat} {inputs : List (Handle e)} :
    x.checkInputs output inputs = .ok () ↔
      ∀ h ∈ inputs, x.checkLive h = .ok () ∧ h.id ≠ output := by
  induction inputs with
  | nil => exact ⟨fun _ _ h => (nomatch h), fun _ => rfl⟩
  | cons h hs ih =>
    rw [checkInputs, List.forall_mem_cons]
    cases hl : x.checkLive h with
    | error er => exact ⟨fun h => (nomatch h), fun h => (nomatch h.1.1)⟩
    | ok u =>
      show (if h.id = output then Except.error _ else _) = _ ↔ _
      by_cases ho : h.id = output
      · rw [if_pos ho]
        exact ⟨fun h => (nomatch h), fun h => absurd ho h.1.2⟩
      · rw [if_neg ho, ih]
        exact ⟨fun h => ⟨⟨rfl, ho⟩, h⟩, fun h => h.2⟩

theorem refuses_of_checkTarget {dst : Target e} {err : Error} (hc : x.checkTarget dst = .error err) :
    err.refuses = true := by
  cases dst with
  | host xs => cases hc
  | device h => exact refuses_of_checkLive hc

theorem refuses_of_checkSource {src : Source e} {err : Error} (hc : x.checkSource src = .error err) :
    err.refuses = true := by
  cases src with
  | host xs => cases hc
  | device h => exact refuses_of_checkLive hc

theorem refuses_of_checkCopy (hr : x.state = .ready) {dst : Target e} {src : Source e} {count : Nat}
    {err : Error} (hc : x.checkCopy dst src count = .error err) : err.refuses = true := by
  unfold checkCopy at hc
  cases ht : x.checkTarget dst with
  | error er =>
    simp only [checkReady_of_ready hr, ht] at hc
    cases hc
    exact refuses_of_checkTarget ht
  | ok u =>
    cases hs : x.checkSource src with
    | error er =>
      simp only [checkReady_of_ready hr, ht, hs] at hc
      cases hc
      exact refuses_of_checkSource hs
    | ok v =>
      simp only [checkReady_of_ready hr, ht, hs] at hc
      split at hc
      · cases hc
        rfl
      · cases hc

/-- what a copy has checked when it starts -/
theorem checkCopy_eq_ok_iff (hr : x.state = .ready) {dst : Target e} {src : Source e} {count : Nat} :
    x.checkCopy dst src count = .ok () ↔
      x.checkTarget dst = .ok () ∧ x.checkSource src = .ok () ∧
        count ≤ dst.length ∧ count ≤ src.length := by
  unfold checkCopy
  rw [checkReady_of_ready hr]
  cases x.checkTarget dst with
  | error er => exact ⟨fun h => (nomatch h), fun h => (nomatch h.1)⟩
  | ok u =>
    cases x.checkSource src with
    | error er => exact ⟨fun h => (nomatch h), fun h => (nomatch h.2.1)⟩
    | ok v =>
      show (if min dst.length src.length < count then Except.error _ else _) = _ ↔ _
      by_cases hl : min dst.length src.length < count
      · rw [if_pos hl]
        exact ⟨fun h => (nomatch h), fun h => absurd hl (by omega)⟩
      · rw [if_neg hl]
        exact ⟨fun _ => ⟨rfl, rfl, by omega⟩, fun _ => rfl⟩

end Executor

theorem refuses_of_kernelCheck {k : Kernel} {s : Style} (hs : s.element = k.input) {output : Nat}
    {inputs : List Nat} {count : Nat} {err : Error}
    (hc : k.check s output inputs count = .error err) : err.refuses = true := by
  unfold Kernel.check at hc
  rw [if_neg (not_not_intro hs)] at hc
  split at hc
  · cases hc
    rfl
  · cases hc

theorem kernelCheck_eq_ok_iff {k : Kernel} {s : Style} (hs : s.element = k.input) (output : Nat)
    (inputs : List Nat) (count : Nat) :
    k.check s output inputs count = .ok () ↔ count ≤ output ∧ ∀ len ∈ inputs, count ≤ len := by
  have hall : (∀ len ∈ output :: inputs, ¬ (decide (len < count)) = true) ↔
      count ≤ output ∧ ∀ len ∈ inputs, count ≤ len := by
    simp only [List.forall_mem_cons, decide_eq_true_eq, Nat.not_lt]
  unfold Kernel.check
  rw [if_neg (not_not_intro hs), ← hall, ← List.find?_eq_none]
  cases (output :: inputs).find? fun len => decide (len < count) with
  | none => exact ⟨fun _ => rfl, fun _ => rfl⟩
  | some len => exact ⟨fun h => (nomatch h), fun h => (nomatch h)⟩

namespace Executor

variable {e : Element} {x : Executor}

theorem refuses_of_checkSubmit (hr : x.state = .ready) {k : Kernel} {width : Nat}
    {output : Handle k.output} {inputs : List (Handle k.input)} {count : Nat} {err : Error}
    (hc : x.checkSubmit k width output inputs count = .error err) : err.refuses = true := by
  unfold checkSubmit at hc
  rw [checkReady_of_ready hr] at hc
  cases hs : Style.accelerator k.input width with
  | error er =>
    simp only [hs] at hc
    cases hc
    rw [(Style.ofWidth_eq_error_iff.mp hs).1]
    rfl
  | ok s =>
    cases ho : x.checkLive output with
    | error er =>
      simp only [hs, ho] at hc
      cases hc
      exact refuses_of_checkLive ho
    | ok u =>
      cases hi : x.checkInputs output.id inputs with
      | error er =>
        simp only [hs, ho, hi] at hc
        cases hc
        exact refuses_of_checkInputs hi
      | ok v =>
        cases hk : k.check s output.length (inputs.map (·.length)) count with
        | error er =>
          simp only [hs, ho, hi, hk] at hc
          cases hc
          exact refuses_of_kernelCheck (Style.ofWidth_eq_ok_iff.mp hs).1 hk
        | ok w =>
          simp only [hs, ho, hi, hk] at hc
          cases hc

/-- what a submission has checked when it starts -/
theorem checkSubmit_eq_ok_iff (hr : x.state = .ready) {k : Kernel} {width : Nat}
    {output : Handle k.output} {inputs : List (Handle k.input)} {count : Nat} {s : Style} :
    x.checkSubmit k width output inputs count = .ok s ↔
      Style.accelerator k.input width = .ok s ∧ x.checkLive output = .ok () ∧
        (∀ h ∈ inputs, x.checkLive h = .ok () ∧ h.id ≠ output.id) ∧
        count ≤ output.length ∧ ∀ h ∈ inputs, count ≤ h.length := by
  unfold checkSubmit
  rw [checkReady_of_ready hr, ← checkInputs_eq_ok_iff]
  cases hs : Style.accelerator k.input width with
  | error er => exact ⟨fun h => (nomatch h), fun h => (nomatch h.1)⟩
  | ok t =>
    cases x.checkLive output with
    | error er => exact ⟨fun h => (nomatch h), fun h => (nomatch h.2.1)⟩
    | ok u =>
      cases x.checkInputs output.id inputs with
      | error er => exact ⟨fun h => (nomatch h), fun h => (nomatch h.2.2.1)⟩
      | ok v =>
        have hk := kernelCheck_eq_ok_iff (Style.ofWidth_eq_ok_iff.mp hs).1 output.length
          (inputs.map (·.length)) count
        rw [List.forall_mem_map] at hk
        rw [← hk]
        dsimp only
        cases k.check t output.length (inputs.map (·.length)) count with
        | error er => exact ⟨fun h => (nomatch h), fun h => (nomatch h.2.2.2)⟩
        | ok w => exact ⟨fun h => ⟨h, rfl, rfl, rfl⟩, fun h => h.1⟩

end Executor

end Accelerator

end Offload
