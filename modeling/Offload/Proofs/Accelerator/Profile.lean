import Offload.Proofs.Accelerator.Lifecycle

/-!
# The profile of a queue

The queue of a profiled executor keeps the label of every command that it has run.  Nothing is assumed here of
the handles that calls are given.

* `Executor.Admits`    a ready executor finds nothing wrong with a call, and there is something to do;
* `queued?`            the label that a call leaves on the queue: its own if it is admitted, and else none;
* `queue_perform`      a call leaves just that, whatever comes of its command;
* `history`            what calls leave, one after the other;
* `profile_is_history` so the profile of an executor is its history, or is not kept.
-/

namespace Offload.Accelerator

/-- The call fits its handles, and there is something to do. -/
def Call.Proper : Call → Prop
  | copy _ dst src count => 0 < count ∧ count ≤ dst.length ∧ count ≤ src.length
  | submit k width output inputs count =>
    0 < count ∧ count ≤ output.length ∧ (∀ h ∈ inputs, h.id ≠ output.id ∧ count ≤ h.length) ∧
      0 < width ∧ k.input.bits ∣ width
  | _ => True

instance : (c : Call) → Decidable c.Proper
  | .copy .. => inferInstanceAs (Decidable (_ ∧ _))
  | .submit .. => inferInstanceAs (Decidable (_ ∧ _))
  | .allocate .. | .deallocate .. | .read .. | .update .. | .wait | .teardown => isTrue trivial

namespace Executor

variable {α : Type} {e : Element} {x : Executor} {a : Ambient} {c : Call} {cs : List (Ambient × Call)}

/-- The executor is ready, the handles are its own and name something live, and the call is a proper one. -/
def Admits (x : Executor) (c : Call) : Prop :=
  x.state = .ready ∧
    (∀ t ∈ c.handles, t.handle.owner = x.id ∧ x.memory.contains t.handle.id = true) ∧ c.Proper

instance (x : Executor) (c : Call) : Decidable (x.Admits c) := inferInstanceAs (Decidable (_ ∧ _))

/-- the label that a call leaves on the queue -/
def queued? (x : Executor) (c : Call) : Option String := if x.Admits c then c.label? else none

theorem queued?_of_admits (h : x.Admits c) : x.queued? c = c.label? := if_pos h

theorem queued?_of_not_admits (h : ¬ x.Admits c) : x.queued? c = none := if_neg h

theorem queued?_of_label?_eq_none (h : c.label? = none) : x.queued? c = none := by
  unfold queued?
  rw [h, ite_self]

/-! ## what is admitted -/

section
variable (hr : x.state = .ready)
include hr

/-- A copy is admitted if it passes its checks and there is something to copy. -/
theorem admits_copy_iff {dst : Target e} {src : Source e} {count : Nat} :
    x.Admits (.copy e dst src count) ↔ x.checkCopy dst src count = .ok () ∧ 0 < count := by
  have htarget : x.checkTarget dst = .ok () ∧ x.checkSource src = .ok () ↔
      ∀ t ∈ (Call.copy e dst src count).handles,
        t.handle.owner = x.id ∧ x.memory.contains t.handle.id = true := by
    unfold Call.handles
    rw [List.forall_mem_append]
    refine and_congr ?_ ?_
    · cases dst with
      | host d => exact ⟨fun _ => nofun, fun _ => rfl⟩
      | device d =>
        rw [List.forall_mem_singleton]
        exact checkLive_eq_ok_iff
    · cases src with
      | host s => exact ⟨fun _ => nofun, fun _ => rfl⟩
      | device s =>
        rw [List.forall_mem_singleton]
        exact checkLive_eq_ok_iff
  rw [checkCopy_eq_ok_iff hr]
  unfold Admits
  rw [← htarget]
  constructor
  · rintro ⟨-, ⟨hd, hs⟩, hn, hnd, hns⟩
    exact ⟨⟨hd, hs, hnd, hns⟩, hn⟩
  · rintro ⟨⟨hd, hs, hnd, hns⟩, hn⟩
    exact ⟨hr, ⟨hd, hs⟩, hn, hnd, hns⟩

/-- A submission is admitted if it passes its checks and there is something to do. -/
theorem admits_submit_iff {k : Kernel} {width : Nat} {output : Handle k.output}
    {inputs : List (Handle k.input)} {count : Nat} :
    x.Admits (.submit k width output inputs count) ↔
      (∃ s, x.checkSubmit k width output inputs count = .ok s) ∧ 0 < count := by
  have hhandles : (∀ t ∈ (Call.submit k width output inputs count).handles,
      t.handle.owner = x.id ∧ x.memory.contains t.handle.id = true) ↔
      x.checkLive output = .ok () ∧ ∀ h ∈ inputs, x.checkLive h = .ok () := by
    unfold Call.handles
    rw [List.forall_mem_cons, List.forall_mem_map, checkLive_eq_ok_iff]
    simp only [checkLive_eq_ok_iff]
  simp only [checkSubmit_eq_ok_iff hr]
  unfold Admits
  rw [hhandles]
  constructor
  · rintro ⟨-, ⟨ho, hi⟩, hn, hno, hins, hw⟩
    obtain ⟨s, hs⟩ := Style.exists_ofWidth_iff.mpr hw
    exact ⟨⟨s, hs, ho, fun h hh => ⟨hi h hh, (hins h hh).1⟩, hno, fun h hh => (hins h hh).2⟩, hn⟩
  · rintro ⟨⟨s, hs, ho, hins, hno, hni⟩, hn⟩
    exact ⟨hr, ⟨ho, fun h hh => (hins h hh).1⟩, hn, hno, fun h hh => ⟨(hins h hh).2, hni h hh⟩,
      Style.exists_ofWidth_iff.mp ⟨s, hs⟩⟩

end

/-! ## calls that the queue runs -/

section
variable (hx : x.Sound) (hr : x.state = .ready)
include hx hr

theorem Sound.queue_command (label : String) (job : Job α) :
    (x.command label job).executor.queue = x.queue.record label := by
  rw [command_executor hr (hx.open_of_ready hr)]

theorem Sound.queue_move (a : Ambient) (count : Nat) (dst : Target e) (src : Source e) :
    (x.move a count dst src).2.executor.queue = x.queue.note (Call.copyLabel? dst src) := by
  cases dst with
  | host d =>
    cases src with
    | host s => rfl
    | device s =>
      refine Eq.trans ?_ (hx.queue_command hr "copy_d2h" (.plain fun m => (m.view s.id e count, m)))
      unfold move
      dsimp only
      split <;> rfl
  | device d =>
    cases src with
    | host s =>
      refine Eq.trans ?_ (hx.queue_command hr "copy_h2d" (.plain fun m => m.write d.id (s.take count)))
      unfold move
      dsimp only
      split <;> rfl
    | device s =>
      refine Eq.trans ?_
        (hx.queue_command hr "copy_d2d" (.plain fun m => m.copyBetween e d.id s.id count))
      unfold move
      dsimp only
      split <;> rfl

theorem Sound.queue_copy (a : Ambient) (dst : Target e) (src : Source e) (count : Nat) :
    (x.copy a dst src count).2.executor.queue = x.queue.note (x.queued? (.copy e dst src count)) := by
  by_cases hadmits : x.Admits (.copy e dst src count)
  · obtain ⟨hc, hn⟩ := (admits_copy_iff hr).mp hadmits
    rw [queued?_of_admits hadmits, copy_of_pos a hc hn]
    exact hx.queue_move hr a count dst src
  · rw [queued?_of_not_admits hadmits]
    cases hc : x.checkCopy dst src count with
    | error err => exact congrArg (·.2.executor.queue) (copy_of_error a hc)
    | ok u =>
      rcases Nat.eq_zero_or_pos count with rfl | hn
      · exact congrArg (·.2.executor.queue) (copy_zero a hc)
      · exact absurd ((admits_copy_iff hr).mpr ⟨hc, hn⟩) hadmits

theorem Sound.queue_submit (a : Ambient) (k : Kernel) (width : Nat) (output : Handle k.output)
    (inputs : List (Handle k.input)) (count : Nat) :
    (x.submit a k width output inputs count).executor.queue =
      x.queue.note (x.queued? (.submit k width output inputs count)) := by
  by_cases hadmits : x.Admits (.submit k width output inputs count)
  · obtain ⟨⟨s, hc⟩, hn⟩ := (admits_submit_iff hr).mp hadmits
    rw [queued?_of_admits hadmits, submit_of_pos a hc hn]
    exact hx.queue_command hr ..
  · rw [queued?_of_not_admits hadmits]
    cases hc : x.checkSubmit k width output inputs count with
    | error err => exact congrArg (·.executor.queue) (submit_of_error a hc)
    | ok s =>
      rcases Nat.eq_zero_or_pos count with rfl | hn
      · exact congrArg (·.executor.queue) (submit_zero a hc)
      · exact absurd ((admits_submit_iff hr).mpr ⟨⟨s, hc⟩, hn⟩) hadmits

end

/-! ## one call -/

/-- What a call leaves on the queue is its label, if it is admitted, and nothing else. -/
theorem Sound.queue_perform (hx : x.Sound) (a : Ambient) (hc : c.isTeardown = false) :
    (x.perform a c).executor.queue = x.queue.note (x.queued? c) := by
  cases hready : x.checkReady with
  | error err =>
    have hadmits : ¬ x.Admits c := by
      rintro ⟨hr, -⟩
      rw [checkReady_of_ready hr] at hready
      cases hready
    rw [perform_of_checkReady hready a hc, queued?_of_not_admits hadmits]
    rfl
  | ok u =>
    have hr := checkReady_eq_ok_iff.mp hready
    cases c with
    | allocate e count space alignment =>
      rw [queued?_of_label?_eq_none rfl]
      rcases allocate_cases hr a e count space alignment with ⟨err, -, h⟩ | ⟨_, -, -, h⟩ <;>
        exact congrArg (·.executor.queue) h
    | deallocate e g =>
      rw [queued?_of_label?_eq_none rfl]
      rcases hx.deallocate_cases hr g with ⟨err, -, h⟩ | ⟨b, -, -, -, h⟩ <;>
        exact congrArg (·.executor.queue) h
    | copy e dst src count => exact hx.queue_copy hr a dst src count
    | submit k width output inputs count => exact hx.queue_submit hr a k width output inputs count
    | read e g =>
      rw [queued?_of_label?_eq_none rfl]
      show (x.readVisible g).executor.queue = x.queue
      unfold readVisible
      rw [hready]
      dsimp only
      split <;> rfl
    | update e β g change =>
      rw [queued?_of_label?_eq_none rfl]
      show (x.updateVisible g fun xs => ((change xs).1, (change xs).2.mapError .crash)).executor.queue =
        x.queue
      unfold updateVisible
      rw [hready]
      dsimp only
      split
      · rfl
      · split
        · rfl
        · split <;> rfl
    | wait =>
      have hadmits : x.Admits .wait := ⟨hr, nofun, trivial⟩
      rw [queued?_of_admits hadmits]
      show x.wait.executor.queue = x.queue.record "wait"
      unfold wait
      rw [hready]
      exact hx.queue_command hr ..
    | teardown => cases hc

theorem Sound.labels_perform (hx : x.Sound) (a : Ambient) (c : Call) :
    (x.perform a c).executor.queue.labels = x.queue.labels.map (· ++ (x.queued? c).toList) := by
  rw [← Queue.labels_note]
  by_cases hc : c.isTeardown = true
  · cases c <;> cases hc
    rw [queued?_of_label?_eq_none rfl]
    by_cases hs : x.state = .tornDown
    · exact congrArg (·.executor.queue.labels) (teardown_of_tornDown hs)
    · exact congrArg (·.executor.queue.labels) (teardown_eq hs)
  · rw [hx.queue_perform a (Bool.not_eq_true _ ▸ hc)]

/-! ## calls one after the other -/

/-- what calls leave on the queue, in order -/
def history (x : Executor) : List (Ambient × Call) → List String
  | [] => []
  | (a, c) :: cs => (x.queued? c).toList ++ (x.perform a c).executor.history cs

theorem history_cons :
    x.history ((a, c) :: cs) = (x.queued? c).toList ++ (x.perform a c).executor.history cs := rfl

/-- After any calls the labels are those of before and the history. -/
theorem Sound.labels_run (hx : x.Sound) (cs : List (Ambient × Call)) :
    (x.run cs).queue.labels = x.queue.labels.map (· ++ x.history cs) := by
  induction cs generalizing x with
  | nil =>
    show x.queue.labels = x.queue.labels.map (· ++ [])
    simp only [List.append_nil, Option.map_id']
  | cons d cs ih =>
    obtain ⟨a, c⟩ := d
    show ((x.perform a c).executor.run cs).queue.labels = _
    rw [ih (hx.perform a c), hx.labels_perform, Option.map_map, history_cons]
    simp only [Function.comp_def, List.append_assoc]

theorem labels_start {id : Nat} {setup : Setup} {events : List Event}
    (h : start id setup = .ok (x, events)) : x.queue.labels = if setup.profiling then some [] else none := by
  unfold start at h
  cases hd : setup.descriptor with
  | error err =>
    rw [hd] at h
    cases h
  | ok device =>
    cases hv : device.validate with
    | error err =>
      simp only [hd, hv] at h
      cases h
    | ok u =>
      simp only [hd, hv] at h
      cases h
      rfl

/-- **The profile is the history of the commands.**  An executor that is profiled lists one label for each
call that is admitted and has one, in the order of the calls, and nothing else; whatever calls come later
add to the end of it, be the executor ready, faulted or torn down.  One that is not profiled lists nothing. -/
theorem profile_is_history {id : Nat} {setup : Setup} {events : List Event}
    (h : start id setup = .ok (x, events)) (cs : List (Ambient × Call)) :
    (setup.profiling = true →
      (x.run cs).queue.profile = x.history cs ∧
      (∀ a c, ((x.run cs).perform a c).executor.queue.profile =
        (x.run cs).queue.profile ++ ((x.run cs).queued? c).toList) ∧
      ∀ ds, (x.run cs).queue.profile <+: ((x.run cs).run ds).queue.profile) ∧
    (setup.profiling = false → (x.run cs).queue.profile = []) := by
  have hx := (sound_start h).1
  have hy := hx.run cs
  have hlabels := labels_start h
  have hrun := hx.labels_run cs
  constructor
  · intro hp
    rw [hlabels, if_pos hp] at hrun
    have hkept : (x.run cs).queue.labels = some (x.history cs) := hrun
    have hprofile : (x.run cs).queue.profile = x.history cs := congrArg (·.getD []) hkept
    refine ⟨hprofile, fun a c => ?_, fun ds => ?_⟩
    · have hnext := hy.labels_perform a c
      rw [hkept] at hnext
      rw [hprofile]
      exact congrArg (·.getD []) hnext
    · have hlater := hy.labels_run ds
      rw [hkept] at hlater
      rw [hprofile]
      exact ⟨(x.run cs).history ds, congrArg (·.getD []) hlater.symm⟩
  · intro hp
    rw [hlabels, if_neg (by rw [hp]; exact Bool.false_ne_true)] at hrun
    exact congrArg (·.getD []) hrun

/-- A copy on the host is not on the queue.  A kernel that crashes is, and what comes after the crash is not. -/
theorem profile_is_history_crash :
    let cs : List (Ambient × Call) := [(.plain, .allocate .u8 4 .deviceExclusive 0),
      (.plain, .copy .u8 (.device ⟨1, 4, .deviceExclusive, 1⟩) (.host [7, 8]) 2),
      (.plain, .copy .u8 (.host [0]) (.host [7]) 1), (.plain, .copy .u8 (.host []) (.host []) 0),
      (.plain, .submit (.failing (.crash .wordless)) 8 ⟨1, 4, .deviceExclusive, 1⟩ [] 1),
      (.plain, .wait), (.plain, .teardown)]
    ∃ x events, start 1 { Setup.standard with profiling := true } = .ok (x, events) ∧
      (x.run cs).queue.profile = ["copy_h2d", "kernel:failing"] := by
  intro cs
  have h : start 1 { Setup.standard with profiling := true } = .ok (_, _) := rfl
  obtain ⟨hprofiled, -⟩ := profile_is_history h cs
  exact ⟨_, _, h, (hprofiled rfl).1.trans rfl⟩

end Executor

end Offload.Accelerator
