import Offload.Proofs.Accelerator.Step

/-!
# What a call looks at first

A ready executor looks at the width of a call and at its handles in turn, and the first that is wrong
decides.

* `Check`, `Call.checks`    one look, and all looks of a call in their order;
* `Executor.refusal?`       what a look refuses the call with;
* `perform_of_findSome?`    a call is refused with the first of these, and nothing happens;
* `perform_of_mem_handles`  so a wrong handle is reported, unless something before it is wrong
                            (`Call.checksBefore`).
-/

namespace Offload.Accelerator

/-- one look before anything happens -/
inductive Check where
  /-- whether a register of so many bits holds whole lanes -/
  | width (e : Element) (bits : Nat)
  /-- whether a handle is the executor's own, and then whether it names something live -/
  | handle (t : AnyHandle)
  /-- whether an input is another allocation than the output -/
  | apart (input output : Nat)
  deriving DecidableEq, Repr

/-- what a call looks at, in order -/
def Call.checks : Call → List Check
  | submit k width output inputs _ =>
    .width k.input width :: .handle ⟨k.output, output⟩ ::
      inputs.flatMap fun h => [.handle ⟨k.input, h⟩, .apart h.id output.id]
  | c => c.handles.map .handle

/-- what a call looks at before it comes to a handle -/
def Call.checksBefore (c : Call) (t : AnyHandle) : List Check := c.checks.takeWhile (· ≠ .handle t)

theorem Call.handle_mem_checks {c : Call} {t : AnyHandle} (h : t ∈ c.handles) :
    .handle t ∈ c.checks := by
  cases c with
  | submit k width output inputs count =>
    rcases List.mem_cons.mp h with rfl | h
    · exact List.mem_cons_of_mem _ List.mem_cons_self
    · obtain ⟨g, hg, rfl⟩ := List.mem_map.mp h
      have hin : Check.handle ⟨k.input, g⟩ ∈
          [Check.handle ⟨k.input, g⟩, .apart g.id output.id] := List.mem_cons_self
      exact List.mem_cons_of_mem _ (List.mem_cons_of_mem _ (List.mem_flatMap.mpr ⟨g, hg, hin⟩))
  | _ => exact List.mem_map_of_mem h

/-- Where one of a list answers, the first answer is its own or comes before it. -/
theorem findSome?_of_mem {α β : Type} [DecidableEq α] {f : α → Option β} {l : List α} {a : α} {b : β}
    (ha : a ∈ l) (hb : f a = some b) :
    l.findSome? f = some (((l.takeWhile (· ≠ a)).findSome? f).getD b) := by
  induction l with
  | nil => cases ha
  | cons c l ih =>
    by_cases hc : c = a
    · subst hc
      rw [List.takeWhile_cons_of_neg (by simp), List.findSome?_cons, hb]
      rfl
    · have hmem : a ∈ l := (List.mem_cons.mp ha).resolve_left (Ne.symm hc)
      rw [List.takeWhile_cons_of_pos (by simpa using hc), List.findSome?_cons, List.findSome?_cons]
      cases f c with
      | none => exact ih hmem
      | some d => rfl

/-- what comes of a look -/
def verdict : Option Error → Except Error Unit
  | none => .ok ()
  | some err => .error err

def Target.checks {e : Element} : Target e → List Check
  | host _ => []
  | device h => [.handle ⟨e, h⟩]

def Source.checks {e : Element} : Source e → List Check
  | host _ => []
  | device h => [.handle ⟨e, h⟩]

theorem Call.checks_copy {e : Element} (dst : Target e) (src : Source e) (count : Nat) :
    (copy e dst src count).checks = dst.checks ++ src.checks := by
  cases dst <;> cases src <;> rfl

namespace Executor

variable {e : Element} {x : Executor} {err : Error}

/-- what a look refuses a call of a ready executor with -/
def refusal? (x : Executor) : Check → Option Error
  | .width e bits => if 0 < bits ∧ e.bits ∣ bits then none else some (.unsupportedVectorLength e bits)
  | .handle t =>
    if t.handle.owner = x.id then
      if x.memory.contains t.handle.id then none else some (.invalidHandle t.handle.id)
    else some (.foreignHandle t.handle.id t.handle.owner x.id)
  | .apart input output => if input = output then some (.aliasedBuffers output) else none

/-! ## the checks of the operations -/

theorem checkLive_eq_verdict (x : Executor) (h : Handle e) :
    x.checkLive h = verdict (x.refusal? (.handle ⟨e, h⟩)) := by
  show _ = verdict (if h.owner = x.id then _ else _)
  rw [checkLive_eq]
  split
  · show _ = verdict (if x.memory.contains h.id then _ else _)
    split <;> rfl
  · rfl

theorem checkTarget_eq_verdict (x : Executor) (dst : Target e) :
    x.checkTarget dst = verdict (dst.checks.findSome? x.refusal?) := by
  cases dst with
  | host d => rfl
  | device h =>
    show x.checkLive h = verdict ([Check.handle ⟨e, h⟩].findSome? x.refusal?)
    rw [checkLive_eq_verdict, List.findSome?_cons]
    cases x.refusal? (.handle ⟨e, h⟩) <;> rfl

theorem checkSource_eq_verdict (x : Executor) (src : Source e) :
    x.checkSource src = verdict (src.checks.findSome? x.refusal?) := by
  cases src with
  | host s => rfl
  | device h => exact x.checkTarget_eq_verdict (.device h)

theorem checkInputs_eq_verdict (x : Executor) (output : Nat) (hs : List (Handle e)) :
    x.checkInputs output hs =
      verdict ((hs.flatMap fun h => [.handle ⟨e, h⟩, .apart h.id output]).findSome? x.refusal?) := by
  induction hs with
  | nil => rfl
  | cons h hs ih =>
    rw [checkInputs, checkLive_eq_verdict, List.flatMap_cons, List.cons_append, List.cons_append,
      List.nil_append, List.findSome?_cons, List.findSome?_cons]
    cases x.refusal? (.handle ⟨e, h⟩) with
    | some err => rfl
    | none =>
      simp only [verdict, refusal?]
      by_cases ho : h.id = output
      · rw [if_pos ho, if_pos ho]
      · rw [if_neg ho, if_neg ho]
        exact ih

theorem refusal?_width (x : Executor) (e : Element) (bits : Nat) :
    x.refusal? (.width e bits) =
      match Style.accelerator e bits with
      | .ok _ => none
      | .error err => some err := by
  show (if _ then none else _) = _
  unfold Style.accelerator Style.ofWidth
  by_cases hw : 0 < bits ∧ e.bits ∣ bits
  · rw [if_pos hw, dif_pos hw]
  · rw [if_neg hw, dif_neg hw]

section
variable (hr : x.state = .ready)
include hr

theorem checkCopy_of_findSome? {dst : Target e} {src : Source e} {count : Nat}
    (h : (Call.copy e dst src count).checks.findSome? x.refusal? = some err) :
    x.checkCopy dst src count = .error err := by
  rw [Call.checks_copy, List.findSome?_append] at h
  unfold checkCopy
  rw [checkReady_of_ready hr, checkTarget_eq_verdict, checkSource_eq_verdict]
  cases hd : dst.checks.findSome? x.refusal? with
  | some er =>
    rw [hd] at h
    cases h
    rfl
  | none =>
    rw [hd, Option.none_or] at h
    rw [h]
    rfl

theorem checkSubmit_of_findSome? {k : Kernel} {width : Nat} {output : Handle k.output}
    {inputs : List (Handle k.input)} {count : Nat}
    (h : (Call.submit k width output inputs count).checks.findSome? x.refusal? = some err) :
    x.checkSubmit k width output inputs count = .error err := by
  unfold Call.checks at h
  rw [List.findSome?_cons, List.findSome?_cons, refusal?_width] at h
  unfold checkSubmit
  rw [checkReady_of_ready hr, checkLive_eq_verdict, checkInputs_eq_verdict]
  cases hs : Style.accelerator k.input width with
  | error er =>
    rw [hs] at h
    cases h
    rfl
  | ok s =>
    rw [hs] at h
    cases ho : x.refusal? (.handle ⟨k.output, output⟩) with
    | some er =>
      rw [ho] at h
      cases h
      rfl
    | none =>
      rw [ho] at h
      dsimp only at h
      rw [h]
      rfl

/-! ## the calls -/

theorem copy_of_findSome? (a : Ambient) {dst : Target e} {src : Source e} {count : Nat}
    (h : (Call.copy e dst src count).checks.findSome? x.refusal? = some err) :
    x.copy a dst src count = (dst, x.refuse err) :=
  copy_of_error a (checkCopy_of_findSome? hr h)

/-- A handle that is given back is looked at like any other. -/
theorem Sound.deallocate_of_checkLive (hx : x.Sound) {h : Handle e}
    (hl : x.checkLive h = .error err) : x.deallocate h = x.refuse err := by
  rw [checkLive_eq] at hl
  rw [hx.deallocate hr]
  by_cases ho : h.owner = x.id
  · rw [if_pos ho] at hl ⊢
    unfold Memory.contains Registry.contains at hl
    cases hf : x.memory.live.find? h.id with
    | none =>
      rw [hf] at hl
      cases hl
      rfl
    | some b =>
      rw [hf] at hl
      cases hl
  · rw [if_neg ho] at hl ⊢
    cases hl
    rfl

/-- What is wrong first is what a call is refused for, and nothing happens. -/
theorem Sound.perform_of_findSome? (hx : x.Sound) (a : Ambient) {c : Call}
    (h : c.checks.findSome? x.refusal? = some err) : x.perform a c = x.refuse err := by
  -- the only look of the calls on a single handle
  have hlive {e : Element} {g : Handle e} (h : [Check.handle ⟨e, g⟩].findSome? x.refusal? = some err) :
      x.checkLive g = .error err := by
    have hg := x.checkTarget_eq_verdict (.device g)
    rw [show Target.checks (.device g) = [Check.handle ⟨e, g⟩] from rfl, h] at hg
    exact hg
  cases c with
  | allocate e count space alignment => cases h
  | deallocate e g => exact hx.deallocate_of_checkLive hr (hlive h)
  | copy e dst src count => exact congrArg Prod.snd (copy_of_findSome? hr a h)
  | submit k width output inputs count =>
    exact submit_of_error a (checkSubmit_of_findSome? hr h)
  | read e g =>
    show x.readVisible g = _
    unfold readVisible checkVisible
    rw [checkReady_of_ready hr, hlive h]
    rfl
  | update e α g change =>
    show x.updateVisible g (fun xs => ((change xs).1, (change xs).2.mapError .crash)) = _
    unfold updateVisible checkVisible
    rw [checkReady_of_ready hr, hlive h]
    rfl
  | wait => cases h
  | teardown => cases h

/-- A wrong handle is what a call is refused for, unless it comes to something wrong before. -/
theorem Sound.perform_of_mem_handles (hx : x.Sound) (a : Ambient) {c : Call} {t : AnyHandle}
    (ht : t ∈ c.handles) (h : x.refusal? (.handle t) = some err) :
    x.perform a c = x.refuse (((c.checksBefore t).findSome? x.refusal?).getD err) :=
  hx.perform_of_findSome? hr a (findSome?_of_mem (Call.handle_mem_checks ht) h)

end

end Executor

end Offload.Accelerator
