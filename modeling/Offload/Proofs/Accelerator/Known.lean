import Offload.Proofs.Accelerator.Step

/-!
# Calls with handles that are known

An executor knows a handle if, whenever it names something live there, it says what that is.

* `Executor.Knows`       the condition on one handle;
* `Sound.holds`          a known handle that passes the checks names an allocation that it matches;
* `Memory.Moves`         what a copy does; one that passed its checks does no more
                         (`Sound.move_moves`);
* `Executor.Finishes`    without an error, and ready for the next call;
* `Sound.submit_views`   a submission that passed its checks runs the kernel once, and of the memory only
                         the output changes;
* `Sound.perform_calm`   every call but a submission and the end of everything is refused or finishes.
-/

namespace Offload.Accelerator

namespace Memory

variable {e : Element}

/-- the elements that a copy can read -/
def source (m : Memory) : Source e → List (Lane e)
  | .host xs => xs
  | .device h => m.contents h

/-- what a copy of some elements leaves of its target and of the memory -/
inductive Moves (m : Memory) (xs : List (Lane e)) : Target e → Target e → Memory → Prop
  | host (d : List (Lane e)) : Moves m xs (.host d) (.host (Slice.put d 0 xs)) m
  | device {d : Handle e} {b : Allocation} (holds : m.Holds d b) :
      Moves m xs (.device d) (.device d) (m.restore d.id (b.store xs))

end Memory

namespace Executor

variable {α : Type} {e : Element} {x : Executor}

/-- If the handle names something live here, it says what that is. -/
def Knows (x : Executor) (h : Handle e) : Prop :=
  h.owner = x.id → ∀ a, x.memory.live.find? h.id = some a → a.Matches h

theorem Sound.holds (hx : x.Sound) {h : Handle e} (hk : x.Knows h) (hl : x.checkLive h = .ok ()) :
    ∃ a, x.memory.Holds h a := by
  obtain ⟨ho, hc⟩ := checkLive_eq_ok_iff.mp hl
  obtain ⟨a, hf⟩ := Option.isSome_iff_exists.mp hc
  exact ⟨a, hf, hk ho a hf, hx.memory.allocations hf⟩

theorem Sound.holdAll (hx : x.Sound) {hs : List (Handle e)} (hk : ∀ h ∈ hs, x.Knows h)
    (hl : ∀ h ∈ hs, x.checkLive h = .ok ()) : ∃ as, x.memory.HoldAll hs as := by
  induction hs with
  | nil => exact ⟨[], .nil⟩
  | cons h hs ih =>
    obtain ⟨a, ha⟩ := hx.holds (hk h List.mem_cons_self) (hl h List.mem_cons_self)
    obtain ⟨as, has⟩ := ih (fun g hg => hk g (List.mem_cons_of_mem _ hg))
      (fun g hg => hl g (List.mem_cons_of_mem _ hg))
    exact ⟨a :: as, .cons ha has⟩

/-- Without an error, and ready for the next call. -/
structure Finishes (r : Reply α) : Prop where
  state_eq : r.executor.state = .ready
  no_error : ∀ err, r.result ≠ .error (.error err)

/-! ## copies -/

theorem command_plain (ho : x.queue.isOpen = true) (label : String) (f : Memory → Outcome α × Memory)
    {v : α} {m : Memory} (hf : f x.memory = (.ok v, m)) :
    x.command label (.plain f) =
      ⟨{ x with queue := x.queue.record label, memory := m }, .ok v, []⟩ := by
  unfold command Queue.run Job.plain
  rw [if_pos ho, hf]
  rfl

section
variable (hx : x.Sound) (hr : x.state = .ready)
include hx hr

/-- A copy that passed its checks writes what it reads.  Nothing else happens to the memory, and on the queue
it leaves no more than its label. -/
theorem Sound.move_moves (a : Ambient) {dst : Target e} {src : Source e} {count : Nat}
    (hd : ∀ h, dst = .device h → x.Knows h) (hs : ∀ h, src = .device h → x.Knows h)
    (hc : x.checkCopy dst src count = .ok ()) :
    ∃ m, Memory.Moves x.memory ((x.memory.source src).take count) dst (x.move a count dst src).1 m ∧
      (x.move a count dst src).2 =
        ⟨{ x with queue := x.queue.note (Call.copyLabel? dst src), memory := m }, .ok (),
          transferred a e count (Call.copyDirection dst src)⟩ := by
  have ho := hx.open_of_ready hr
  obtain ⟨htl, hsl, hnd, hns⟩ := (checkCopy_eq_ok_iff hr).mp hc
  cases dst with
  | host d =>
    cases src with
    | host s => exact ⟨_, .host d, rfl⟩
    | device s =>
      obtain ⟨b, hb⟩ := hx.holds (hs s rfl) hsl
      have hv : (x.memory.view s.id e count, x.memory) = (.ok (b.front e count), x.memory) := by
        rw [hb.view hns]
      have hread : (x.memory.source (.device s)).take count = b.front e count := hb.take_contents hns
      unfold move
      dsimp only
      rw [command_plain ho "copy_d2h" (fun m => (m.view s.id e count, m)) hv, hread]
      exact ⟨_, .host d, rfl⟩
  | device d =>
    obtain ⟨b, hb⟩ := hx.holds (hd d rfl) htl
    cases src with
    | host s =>
      have hl : (s.take count).length ≤ d.length := by
        rw [List.length_take]
        exact Nat.le_trans (Nat.min_le_left ..) hnd
      unfold move
      dsimp only
      rw [command_plain ho "copy_h2d" (fun m => m.write d.id (s.take count)) (hb.write hl)]
      exact ⟨_, .device hb, rfl⟩
    | device s =>
      obtain ⟨c, hc⟩ := hx.holds (hs s rfl) hsl
      have hread : (x.memory.source (.device s)).take count = c.front e count := hc.take_contents hns
      have hcopy : x.memory.copyBetween e d.id s.id count =
          (.ok (), x.memory.restore d.id (b.store (c.front e count))) := by
        by_cases hid : d.id = s.id
        · -- a number names one allocation, and to write to it what it holds changes nothing
          have hbc : b = c := Option.some.inj (hb.find.symm.trans (hid ▸ hc.find))
          rw [hbc, hid, hc.restore_front hns]
          exact hc.copyBetween_self hns
        · exact Memory.Holds.copyBetween hx.memory hb hc hid hnd hns
      unfold move
      dsimp only
      rw [command_plain ho "copy_d2d" (fun m => m.copyBetween e d.id s.id count) hcopy, hread]
      exact ⟨_, .device hb, rfl⟩

/-- A copy is refused, and then its target stays, or it finishes. -/
theorem Sound.copy_cases (a : Ambient) {dst : Target e} {src : Source e} (count : Nat)
    (hd : ∀ h, dst = .device h → x.Knows h) (hs : ∀ h, src = .device h → x.Knows h) :
    (x.Refuses (x.copy a dst src count).2 ∧ (x.copy a dst src count).1 = dst) ∨
    ((x.copy a dst src count).2.executor.state = .ready ∧ (x.copy a dst src count).2.result = .ok ()) := by
  cases hc : x.checkCopy dst src count with
  | error err =>
    rw [copy_of_error a hc]
    exact .inl ⟨⟨err, refuses_of_checkCopy hr hc, rfl⟩, rfl⟩
  | ok u =>
    rcases Nat.eq_zero_or_pos count with rfl | hn
    · rw [copy_zero a hc]
      exact .inr ⟨hr, rfl⟩
    · obtain ⟨m, -, hmove⟩ := hx.move_moves hr a hd hs hc
      rw [copy_of_pos a hc hn, hmove]
      exact .inr ⟨hr, rfl⟩

/-! ## host-visible memory -/

theorem Sound.readVisible_cases {h : Handle e} (hk : x.Knows h) :
    x.Refuses (x.readVisible h) ∨
    ∃ b, x.memory.Holds h b ∧ x.readVisible h = ⟨x, .ok (b.front e h.length), []⟩ := by
  unfold readVisible
  rw [checkReady_of_ready hr]
  cases hc : x.checkVisible h with
  | error err => exact .inl ⟨err, refuses_of_checkVisible hc, rfl⟩
  | ok u =>
    obtain ⟨b, hb⟩ := hx.holds hk (checkLive_of_checkVisible hc)
    refine .inr ⟨b, hb, ?_⟩
    rw [hb.view (Nat.le_refl _)]

theorem Sound.updateVisible_cases {h : Handle e} (hk : x.Knows h)
    (change : List (Lane e) → List (Lane e) × Outcome α) :
    x.Refuses (x.updateVisible h change) ∨
    ∃ b, x.memory.Holds h b ∧
      let xs := b.front e h.length
      x.updateVisible h change =
        ⟨{ x with memory := x.memory.restore h.id (b.store (Slice.put xs 0 (change xs).1)) },
          (change xs).2, []⟩ := by
  unfold updateVisible
  rw [checkReady_of_ready hr]
  cases hc : x.checkVisible h with
  | error err => exact .inl ⟨err, refuses_of_checkVisible hc, rfl⟩
  | ok u =>
    obtain ⟨b, hb⟩ := hx.holds hk (checkLive_of_checkVisible hc)
    refine .inr ⟨b, hb, ?_⟩
    unfold Memory.find
    simp only [hb.find, hb.allocation_view (Nat.le_refl _)]

/-! ## submissions -/

/-- A submission that passed its checks runs the kernel once, on the first elements of what its handles
name; the output is put back as the kernel left it, and the result says what becomes of the executor. -/
theorem Sound.submit_runs (a : Ambient) {k : Kernel} {width : Nat} {output : Handle k.output}
    {inputs : List (Handle k.input)} {count : Nat} {s : Style} (hk : x.Knows output)
    (hi : ∀ h ∈ inputs, x.Knows h) (hc : x.checkSubmit k width output inputs count = .ok s)
    (hn : 0 < count) :
    ∃ b bs, x.memory.Holds output b ∧ x.memory.HoldAll inputs bs ∧
      let run := k.apply s (b.front k.output count) (bs.map (·.front k.input count)) count
      let reply := x.submit a k width output inputs count
      reply.result = .ofExcept (Queue.report s!"kernel:{k.name}" run.outcome) ∧
      reply.executor =
        { x with
          queue := x.queue.record s!"kernel:{k.name}"
          memory := x.memory.restore output.id (b.store run.output)
          state := Lifecycle.after reply.result } := by
  obtain ⟨-, hlo, hli, hno, hni⟩ := (checkSubmit_eq_ok_iff hr).mp hc
  obtain ⟨b, hb⟩ := hx.holds hk hlo
  obtain ⟨bs, hbs⟩ := hx.holdAll hi fun h hh => (hli h hh).1
  have hq := hx.open_of_ready hr
  have hjob := hb.kernelJob (s := s) hbs (fun h hh => (hli h hh).2) hno hni
  have hres := command_result hq s!"kernel:{k.name}" (kernelJob k s output.id (inputs.map (·.id)) count)
  have hexe := command_executor hr hq s!"kernel:{k.name}"
    (kernelJob k s output.id (inputs.map (·.id)) count)
  rw [hjob] at hres hexe
  rw [submit_of_pos a hc hn]
  exact ⟨b, bs, hb, hbs, hres, hexe⟩

/-- The same by the views that the kernel is given: of the memory only the first elements of the output
differ afterwards. -/
theorem Sound.submit_views (a : Ambient) {k : Kernel} {width : Nat} {output : Handle k.output}
    {inputs : List (Handle k.input)} {count : Nat} {s : Style} (hk : x.Knows output)
    (hi : ∀ h ∈ inputs, x.Knows h) (hc : x.checkSubmit k width output inputs count = .ok s)
    (hn : 0 < count) :
    ∃ out ins m, x.memory.view output.id k.output count = .ok out ∧
      x.memory.views k.input count (inputs.map (·.id)) = .ok ins ∧
      x.memory.SameBut m output.id (count * k.output.bytes) ∧
      let reply := x.submit a k width output inputs count
      reply.result =
        .ofExcept (Queue.report s!"kernel:{k.name}" (k.apply s out ins count).outcome) ∧
      reply.executor =
        { x with
          queue := x.queue.record s!"kernel:{k.name}"
          memory := m
          state := Lifecycle.after reply.result } := by
  obtain ⟨b, bs, hb, hbs, hres, hexe⟩ := hx.submit_runs hr a hk hi hc hn
  obtain ⟨-, -, -, hno, hni⟩ := (checkSubmit_eq_ok_iff hr).mp hc
  have hlen : (k.apply s (b.front k.output count) (bs.map (·.front k.input count)) count).output.length =
      count := (k.length_apply ..).trans (Offload.Memory.length_decode ..)
  have hsame := hb.sameBut_store (Nat.le_trans (Nat.le_of_eq hlen) hno)
  rw [hlen] at hsame
  exact ⟨_, _, _, hb.view hno, hbs.views hni, hsame, hres, hexe⟩

omit hx in
theorem submit_refuses (a : Ambient) {k : Kernel} {width : Nat} {output : Handle k.output}
    {inputs : List (Handle k.input)} {count : Nat} {err : Error}
    (hc : x.checkSubmit k width output inputs count = .error err) :
    x.Refuses (x.submit a k width output inputs count) := by
  rw [submit_of_error a hc]
  exact ⟨err, refuses_of_checkSubmit hr hc, rfl⟩

/-! ## all other calls -/

/-- Every call but a submission and the end of everything is refused or finishes, and nothing but a
change in place can give up. -/
theorem Sound.perform_calm (a : Ambient) {c : Call} (hk : ∀ t ∈ c.handles, x.Knows t.handle)
    (hs : c.isSubmit = false) (ht : c.isTeardown = false) :
    x.Refuses (x.perform a c) ∨
    (Finishes (x.perform a c) ∧ (c.isUpdate = false → ∃ v, (x.perform a c).result = .ok v)) := by
  have finishes {c : Call} (hst : (x.perform a c).executor.state = .ready) {v : c.Value}
      (hv : (x.perform a c).result = .ok v) : x.Refuses (x.perform a c) ∨
        (Finishes (x.perform a c) ∧ (c.isUpdate = false → ∃ v, (x.perform a c).result = .ok v)) :=
    .inr ⟨⟨hst, fun err he => (nomatch hv.symm.trans he)⟩, fun _ => ⟨v, hv⟩⟩
  cases c with
  | allocate e count space alignment =>
    rcases allocate_cases hr a e count space alignment with h | ⟨_, _, _, h⟩
    · exact .inl h
    · exact finishes ((congrArg (·.executor.state) h).trans hr) (congrArg (·.result) h)
  | deallocate e g =>
    rcases hx.deallocate_cases hr g with h | ⟨_, _, _, _, h⟩
    · exact .inl h
    · exact finishes ((congrArg (·.executor.state) h).trans hr) (congrArg (·.result) h)
  | copy e dst src count =>
    obtain ⟨hd, hsrc⟩ := Call.forall_handles_copy hk
    rcases hx.copy_cases hr a count hd hsrc with h | ⟨hst, hv⟩
    · exact .inl h.1
    · exact finishes hst hv
  | submit k width output inputs count => cases hs
  | read e g =>
    rcases hx.readVisible_cases hr (hk ⟨e, g⟩ List.mem_cons_self) with h | ⟨b, _, h⟩
    · exact .inl h
    · exact finishes ((congrArg (·.executor.state) h).trans hr) (congrArg (·.result) h)
  | update e α g change =>
    rcases hx.updateVisible_cases hr (hk ⟨e, g⟩ List.mem_cons_self)
      (fun xs => ((change xs).1, (change xs).2.mapError .crash)) with h | ⟨b, _, h⟩
    · exact .inl h
    · refine .inr ⟨⟨(congrArg (·.executor.state) h).trans hr, fun err he => ?_⟩, fun hu => nomatch hu⟩
      have hv := (congrArg (·.result) h).symm.trans he
      revert hv
      show (change (b.front e g.length)).2.mapError Failure.crash = Except.error (.error err) → False
      cases (change (b.front e g.length)).2 <;> exact fun hv => nomatch hv
  | wait =>
    have hw := command_plain (hx.open_of_ready hr) "wait" (fun m => (.ok (), m)) (v := ()) rfl
    have h : x.perform a .wait = x.command "wait" (.plain fun m => (.ok (), m)) := by
      show x.wait = _
      unfold wait
      rw [checkReady_of_ready hr]
    rw [hw] at h
    exact finishes ((congrArg (·.executor.state) h).trans hr) (congrArg (·.result) h)
  | teardown => cases ht

end

end Executor

end Offload.Accelerator
