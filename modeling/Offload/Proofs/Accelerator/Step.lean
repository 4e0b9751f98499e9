import Offload.Proofs.Accelerator.Call

/-!
# One call

* `Executor.Sound`    sound memory, a queue that is open until the executor is torn down, and nothing
                      live after that;
* `Executor.Refuses`  refused before anything happens;
* `Executor.Goes`     what a ready executor can do without allocating or freeing: contents change, and the
                      state is told by the result alone (`Lifecycle.after`);
* `Executor.Effect`   all that a call can do, with one case each for allocating, freeing and the end.

A copy is opened by what its checks say and by whether there is anything to do (`copy_of_error`, `copy_zero`,
`copy_of_pos`), and so is a submission.

`Sound.perform_effect` says that there is nothing else, in whatever state and with whatever handles; what
every call keeps is then one look at these cases (`Effect.sound`, `Effect.id_eq`).
-/

namespace Offload

theorem Error.eq_kernel_of_kind {err : Error} (h : err.kind = .kernel) :
    ∃ name text, err = .kernel name text := by
  cases err <;> first | exact ⟨_, _, rfl⟩ | cases h

namespace Accelerator

/-- the state after a call of a ready executor -/
def Lifecycle.after {α : Type} : Outcome α → Lifecycle
  | .error (.error (.deviceFault label text)) => .faulted (Error.deviceFault label text).message
  | _ => .ready

theorem Lifecycle.after_of_refuses {α : Type} {err : Error} (h : err.refuses = true) :
    Lifecycle.after (.error (.error err) : Outcome α) = .ready := by
  cases err <;> first | rfl | cases h

theorem Lifecycle.after_of_check {α : Type} {a : Allocation} {e : Element} {count : Nat} {err : Error}
    (h : a.check e count = .error err) :
    Lifecycle.after (.error (.error err) : Outcome α) = .ready := by
  unfold Allocation.check at h
  split at h
  · cases h
    rfl
  · split at h <;> cases h
    rfl

namespace Queue

variable {α : Type}

/-- a command that fails other than by a kernel's own refusal -/
def Faulty : Outcome α → Prop
  | .ok _ => False
  | .error (.error err) => err.kind ≠ .kernel
  | .error (.crash _) => True

/-- A kernel's own refusal comes back as it is, any other failure as a fault under the label. -/
theorem report_cases (label : String) (o : Outcome α) :
    (∃ v, o = .ok v ∧ report label o = .ok v) ∨
    (∃ err, o = .error (.error err) ∧ err.kind = .kernel ∧ report label o = .error err) ∨
    (Faulty o ∧ ∃ text, report label o = .error (.deviceFault label text)) := by
  cases o with
  | ok v => exact .inl ⟨v, rfl, rfl⟩
  | error f =>
    cases f with
    | crash c => exact .inr (.inr ⟨trivial, _, rfl⟩)
    | error err =>
      cases err <;>
        first
        | exact .inr (.inl ⟨_, rfl, rfl, rfl⟩)
        | exact .inr (.inr ⟨fun h => (nomatch h), _, rfl⟩)

/-- what a queue is like after a command of that label, or after nothing -/
def note (q : Queue) (label? : Option String) : Queue := label?.elim q q.record

theorem labels_note (q : Queue) (label? : Option String) :
    (q.note label?).labels = q.labels.map (· ++ label?.toList) := by
  cases label? with
  | some label => rfl
  | none =>
    show q.labels = q.labels.map (· ++ [])
    simp only [List.append_nil, Option.map_id']

theorem report_of_error {label : String} {err : Error} (h : err.kind ≠ .kernel) :
    report label (.error (.error err) : Outcome α) = .error (.deviceFault label err.message) := by
  cases err <;> first | rfl | exact absurd rfl h

end Queue

namespace Executor

variable {α : Type} {e : Element} {x : Executor}

/-- The call is refused before anything happens. -/
def Refuses (x : Executor) (r : Reply α) : Prop := ∃ err : Error, err.refuses = true ∧ r = x.refuse err

structure Sound (x : Executor) : Prop where
  memory : x.memory.Sound
  limit_eq : x.memory.limit = x.device.limit
  open_of : x.state ≠ .tornDown → x.queue.isOpen = true
  empty_of : x.state = .tornDown → x.memory.count = 0 ∧ x.memory.bytes = 0

theorem Sound.open_of_ready (hx : x.Sound) (hr : x.state = .ready) : x.queue.isOpen = true :=
  hx.open_of (by rw [hr]; exact fun h => (nomatch h))

/-- what a ready executor can do without allocating or freeing -/
structure Goes (x : Executor) (r : Reply α) : Prop where
  id_eq : r.executor.id = x.id
  device_eq : r.executor.device = x.device
  isOpen_eq : r.executor.queue.isOpen = x.queue.isOpen
  rewrites : x.memory.Rewrites r.executor.memory
  state_eq : r.executor.state = Lifecycle.after r.result

/-- Only the executor and the state that the result tells are looked at. -/
theorem Goes.of_eq {β : Type} {r : Reply α} {s : Reply β} (hg : x.Goes r)
    (executor : s.executor = r.executor)
    (after : Lifecycle.after s.result = Lifecycle.after r.result) : x.Goes s where
  id_eq := executor ▸ hg.id_eq
  device_eq := executor ▸ hg.device_eq
  isOpen_eq := executor ▸ hg.isOpen_eq
  rewrites := executor ▸ hg.rewrites
  state_eq := by rw [executor, after, hg.state_eq]

theorem Refuses.goes (hr : x.state = .ready) {r : Reply α} (h : x.Refuses r) : x.Goes r := by
  obtain ⟨err, he, rfl⟩ := h
  exact ⟨rfl, rfl, rfl, .same, hr.trans (Lifecycle.after_of_refuses he).symm⟩

/-- what a call can do -/
inductive Effect (x : Executor) : (c : Call) → Reply c.Value → Prop
  /-- refused because of the state -/
  | stopped {c : Call} {err : Error} (state : x.checkReady = .error err) : Effect x c (x.refuse err)
  | refused {c : Call} {r : Reply c.Value} (ready : x.state = .ready) (refuses : x.Refuses r) :
      Effect x c r
  | goes {c : Call} {r : Reply c.Value} (ready : x.state = .ready) (kind : c.keepsLive = true)
      (goes : x.Goes r) : Effect x c r
  | allocated {e : Element} {count alignment : Nat} {space : MemoryClass} {actual : Nat}
      {events : List Event} (ready : x.state = .ready)
      (sound : (Allocation.zeroed space e count actual).Sound)
      (room : x.memory.checkRoom (count * e.bytes) space = .ok ()) :
      Effect x (.allocate e count space alignment)
        ⟨{ x with memory := x.memory.enlist (Allocation.zeroed space e count actual) },
          .ok ⟨x.memory.nextId, count, space, x.id⟩, events⟩
  | freed {e : Element} {h : Handle e} {a : Allocation} {events : List Event}
      (ready : x.state = .ready) (owner : h.owner = x.id) (find : x.memory.live.find? h.id = some a)
      (space : a.space = h.space) :
      Effect x (.deallocate e h) ⟨{ x with memory := x.memory.release h.id a }, .ok (), events⟩
  | ended (state : x.state ≠ .tornDown) : Effect x .teardown ⟨x.shutDown.1, .ok (), x.shutDown.2⟩

/-! ## commands -/

theorem command_result (ho : x.queue.isOpen = true) (label : String) (job : Job α) :
    (x.command label job).result = .ofExcept (Queue.report label (job x.memory).outcome) := by
  unfold command Queue.run
  rw [if_pos ho]
  dsimp only
  cases hrep : Queue.report label (job x.memory).outcome with
  | ok v => rfl
  | error err =>
    dsimp only
    split <;> rfl

theorem command_executor (hr : x.state = .ready) (ho : x.queue.isOpen = true) (label : String)
    (job : Job α) :
    (x.command label job).executor =
      { x with
        queue := x.queue.record label
        memory := (job x.memory).memory
        state := Lifecycle.after (x.command label job).result } := by
  rw [command_result ho]
  unfold command Queue.run
  rw [if_pos ho]
  dsimp only
  rcases Queue.report_cases label (job x.memory).outcome with
    ⟨v, -, h⟩ | ⟨err, -, hk, h⟩ | ⟨-, text, h⟩
  · rw [h]
    simp only [Outcome.ofExcept, Lifecycle.after, ← hr]
  · rw [h]
    obtain ⟨name, text, rfl⟩ := Error.eq_kernel_of_kind hk
    simp only [Error.kind, if_true, Outcome.ofExcept, Lifecycle.after, ← hr]
  · rw [h]
    have hne : ¬ (Error.deviceFault label text).kind = .kernel := fun h => (nomatch h)
    simp only [if_neg hne, fault, hr, Outcome.ofExcept, Lifecycle.after]

theorem Sound.goes_command (hx : x.Sound) (hr : x.state = .ready) (label : String) (job : Job α)
    (hj : x.memory.Rewrites (job x.memory).memory) : x.Goes (x.command label job) := by
  have hc := command_executor hr (hx.open_of_ready hr) label job
  refine ⟨?_, ?_, ?_, ?_, ?_⟩ <;> rw [hc]
  · rfl
  · exact hj

/-! ## what each operation does -/

theorem size_ofElements {e : Element} {count alignment : Nat} {r : Offload.Memory.Request}
    (h : Offload.Memory.Request.ofElements e count alignment = .ok r) :
    r.size = count * e.bytes ∧ r.size < Size.limit ∧ e.bytes ≤ r.alignment := by
  unfold Offload.Memory.Request.ofElements at h
  split at h
  · cases h
  · cases hm : Size.mul? count e.bytes with
    | none =>
      rw [hm] at h
      cases h
    | some size =>
      rw [hm] at h
      cases h
      unfold Size.mul? at hm
      split at hm
      · cases hm
        refine ⟨rfl, by assumption, ?_⟩
        show e.bytes ≤ Offload.Memory.effectiveAlignment e alignment
        unfold Offload.Memory.effectiveAlignment
        split <;> omega
      · cases hm

theorem refuses_of_ofElements {e : Element} {count alignment : Nat} {err : Error}
    (h : Offload.Memory.Request.ofElements e count alignment = .error err) : err.refuses = true := by
  unfold Offload.Memory.Request.ofElements at h
  split at h
  · cases h
    rfl
  · cases hm : Size.mul? count e.bytes <;> rw [hm] at h <;> cases h
    rfl

theorem refuses_of_zeroed {grants : Allocator} {size alignment : Nat} {err : Error}
    (h : Block.zeroed grants size alignment = .error err) : err.refuses = true := by
  unfold Block.zeroed at h
  split at h
  · cases h
    rfl
  · split at h
    · cases h
      rfl
    · split at h
      · cases h
        rfl
      · cases h

theorem refuses_of_memoryAllocate {m : Memory} {grants : Allocator} {size alignment : Nat}
    {space : MemoryClass} {e : Element} {length : Nat} {err : Error}
    (h : m.allocate grants size alignment space e length = .error err) : err.refuses = true := by
  unfold Memory.allocate at h
  rcases m.checkRoom_cases size space with hr | ⟨limit, -, -, -, hr⟩
  · rw [hr] at h
    cases hz : Block.zeroed grants size alignment with
    | ok block =>
      simp only [hz] at h
      cases h
    | error er =>
      simp only [hz] at h
      cases h
      exact refuses_of_zeroed hz
  · rw [hr] at h
    cases h
    rfl

/-- A new allocation is all zero, and its handle says what it is. -/
theorem allocate_cases (hr : x.state = .ready) (a : Ambient) (e : Element) (count : Nat)
    (space : MemoryClass) (alignment : Nat) :
    x.Refuses (x.allocate a e count space alignment) ∨
    ∃ actual, (Allocation.zeroed space e count actual).Sound ∧
      x.memory.checkRoom (count * e.bytes) space = .ok () ∧
      x.allocate a e count space alignment =
        ⟨{ x with memory := x.memory.enlist (Allocation.zeroed space e count actual) },
          .ok ⟨x.memory.nextId, count, space, x.id⟩,
          Trace.measured a.settings (.allocation (count * e.bytes) actual space.name a.work) ++
            [.deviceBufferAllocated x.id x.memory.nextId space count e]⟩ := by
  unfold allocate
  rw [checkReady_of_ready hr]
  cases hq : Offload.Memory.Request.ofElements e count alignment with
  | error err => exact .inl ⟨err, refuses_of_ofElements hq, rfl⟩
  | ok r =>
    obtain ⟨hs, hlt, ha⟩ := size_ofElements hq
    cases hm : x.memory.allocate a.grants r.size r.alignment space e count with
    | error err =>
      simp only [hm]
      exact .inl ⟨err, refuses_of_memoryAllocate hm, rfl⟩
    | ok p =>
      obtain ⟨id, m⟩ := p
      obtain ⟨hroom, rfl, rfl⟩ := Memory.allocate_eq_ok hm
      refine .inr ⟨r.alignment, ⟨?_, ?_, ha⟩, ?_, ?_⟩
      · exact List.length_replicate
      · show (List.replicate _ _).length < _
        rw [List.length_replicate, ← hs]
        exact hlt
      · rw [← hs]
        exact hroom
      · simp only [hm]
        unfold Allocation.zeroed
        rw [← hs]

/-- A free handle is looked at in this order: owner, life, class. -/
theorem Sound.deallocate (hx : x.Sound) (hr : x.state = .ready) (h : Handle e) :
    x.deallocate h =
      if h.owner = x.id then
        match x.memory.live.find? h.id with
        | none => x.refuse (.invalidHandle h.id)
        | some a =>
          if a.space ≠ h.space then x.refuse (.wrongMemoryClass h.id h.space a.space)
          else ⟨{ x with memory := x.memory.release h.id a }, .ok (),
            [.deviceBufferFreed x.id h.id h.space a.block.size]⟩
      else x.refuse (.foreignHandle h.id h.owner x.id) := by
  unfold Executor.deallocate
  rw [checkReady_of_ready hr, checkOwner_eq, hx.memory.free]
  by_cases ho : h.owner = x.id
  · rw [if_pos ho, if_pos ho]
    cases x.memory.live.find? h.id with
    | none => rfl
    | some a =>
      by_cases hs : a.space = h.space
      · simp only [if_neg (not_not_intro hs)]
      · simp only [if_pos hs]
        rfl
  · rw [if_neg ho, if_neg ho]

theorem Sound.deallocate_cases (hx : x.Sound) (hr : x.state = .ready) (h : Handle e) :
    x.Refuses (x.deallocate h) ∨
    ∃ a, h.owner = x.id ∧ x.memory.live.find? h.id = some a ∧ a.space = h.space ∧
      x.deallocate h = ⟨{ x with memory := x.memory.release h.id a }, .ok (),
        [.deviceBufferFreed x.id h.id h.space a.block.size]⟩ := by
  rw [hx.deallocate hr]
  by_cases ho : h.owner = x.id
  · rw [if_pos ho]
    cases hf : x.memory.live.find? h.id with
    | none => exact .inl ⟨_, rfl, rfl⟩
    | some a =>
      by_cases hs : a.space = h.space
      · simp only [if_neg (not_not_intro hs)]
        exact .inr ⟨a, ho, rfl, hs, rfl⟩
      · simp only [if_pos hs]
        exact .inl ⟨_, rfl, rfl⟩
  · rw [if_neg ho]
    exact .inl ⟨_, rfl, rfl⟩

/-! ## what is checked first -/

section
variable (a : Ambient) {dst : Target e} {src : Source e} {k : Kernel} {width : Nat} {output : Handle k.output}
  {inputs : List (Handle k.input)} {count : Nat} {s : Style} {err : Error}

theorem copy_of_error (hc : x.checkCopy dst src count = .error err) :
    x.copy a dst src count = (dst, x.refuse err) := by
  unfold copy
  rw [hc]

/-- A copy that passed its checks and has nothing to do changes nothing. -/
theorem copy_zero (hc : x.checkCopy dst src 0 = .ok ()) : x.copy a dst src 0 = (dst, ⟨x, .ok (), []⟩) := by
  unfold copy
  rw [hc]
  rfl

theorem copy_of_pos (hc : x.checkCopy dst src count = .ok ()) (hn : 0 < count) :
    x.copy a dst src count = x.move a count dst src := by
  unfold copy
  rw [hc]
  exact if_neg (Nat.ne_of_gt hn)

theorem submit_of_error (hc : x.checkSubmit k width output inputs count = .error err) :
    x.submit a k width output inputs count = x.refuse err := by
  unfold submit
  rw [hc]

/-- A submission that passed its checks and has nothing to do changes nothing. -/
theorem submit_zero (hc : x.checkSubmit k width output inputs 0 = .ok s) :
    x.submit a k width output inputs 0 = ⟨x, .ok (), []⟩ := by
  unfold submit
  rw [hc]
  rfl

/-- Any other is its command, with a record and a span around it. -/
theorem submit_of_pos (hc : x.checkSubmit k width output inputs count = .ok s) (hn : 0 < count) :
    x.submit a k width output inputs count =
      let reply := x.command s!"kernel:{k.name}" (kernelJob k s output.id (inputs.map (·.id)) count)
      let record := match reply.result with
        | .ok () => Trace.measured a.settings (.submission k.name backend count a.work)
        | .error _ => []
      let span := Trace.Span.configured a.settings s!"{backend}_submit:{k.name}"
      { reply with events := reply.events ++ record ++ Trace.ended a.settings span a.span } := by
  unfold submit
  rw [hc]
  exact if_neg (Nat.ne_of_gt hn)

end

/-! ## what a call can do, whatever it is given -/

section
variable (hx : x.Sound) (hr : x.state = .ready)
include hx hr

theorem Sound.goes_copy (a : Ambient) (dst : Target e) (src : Source e) (count : Nat) :
    x.Goes (x.copy a dst src count).2 := by
  cases hc : x.checkCopy dst src count with
  | error err =>
    rw [copy_of_error a hc]
    exact Refuses.goes hr ⟨err, refuses_of_checkCopy hr hc, rfl⟩
  | ok u =>
    rcases Nat.eq_zero_or_pos count with rfl | hn
    · rw [copy_zero a hc]
      exact ⟨rfl, rfl, rfl, .same, hr⟩
    · rw [copy_of_pos a hc hn]
      cases dst with
      | host d =>
        cases src with
        | host s => exact ⟨rfl, rfl, rfl, .same, hr⟩
        | device s =>
          have hg := hx.goes_command hr "copy_d2h" (.plain fun m => (m.view s.id e count, m)) .same
          unfold move
          dsimp only
          split
          · rename_i f hf
            refine hg.of_eq rfl ?_
            rw [hf]
            cases f with
            | crash c => rfl
            | error err => cases err <;> rfl
          · rename_i xs hf
            refine hg.of_eq rfl ?_
            rw [hf]
            rfl
      | device d =>
        cases src with
        | host s =>
          have hg := hx.goes_command hr "copy_h2d" (.plain fun m => m.write d.id (s.take count))
            (x.memory.rewrites_write _ _)
          unfold move
          dsimp only
          split
          · exact hg
          · exact hg.of_eq rfl rfl
        | device s =>
          have hg := hx.goes_command hr "copy_d2d"
            (.plain fun m => m.copyBetween e d.id s.id count)
            (hx.memory.rewrites_copyBetween _ _ _ _)
          unfold move
          dsimp only
          split
          · exact hg
          · exact hg.of_eq rfl rfl

theorem Sound.goes_submit (a : Ambient) (k : Kernel) (width : Nat) (output : Handle k.output)
    (inputs : List (Handle k.input)) (count : Nat) :
    x.Goes (x.submit a k width output inputs count) := by
  cases hc : x.checkSubmit k width output inputs count with
  | error err =>
    rw [submit_of_error a hc]
    exact Refuses.goes hr ⟨err, refuses_of_checkSubmit hr hc, rfl⟩
  | ok s =>
    rcases Nat.eq_zero_or_pos count with rfl | hn
    · rw [submit_zero a hc]
      exact ⟨rfl, rfl, rfl, .same, hr⟩
    · rw [submit_of_pos a hc hn]
      have hg := hx.goes_command hr s!"kernel:{k.name}" _
        (rewrites_kernelJob x.memory k s output.id (inputs.map (·.id)) count)
      exact hg.of_eq rfl rfl

theorem Sound.goes_readVisible (h : Handle e) : x.Goes (x.readVisible h) := by
  unfold readVisible
  rw [checkReady_of_ready hr]
  cases hc : x.checkVisible h with
  | error err => exact Refuses.goes hr ⟨err, refuses_of_checkVisible hc, rfl⟩
  | ok u =>
    refine ⟨rfl, rfl, rfl, .same, hr.trans ?_⟩
    show Lifecycle.ready = Lifecycle.after (x.memory.view h.id e h.length)
    unfold Memory.view Memory.find
    cases hf : x.memory.live.find? h.id with
    | none => rfl
    | some a =>
      dsimp only
      unfold Allocation.view
      rw [(hx.memory.allocations hf).fits]
      cases hk : a.check e h.length with
      | error err => exact (Lifecycle.after_of_check hk).symm
      | ok v => rfl

theorem Sound.goes_updateVisible (h : Handle e)
    (change : List (Lane e) → List (Lane e) × Except Crash α) :
    x.Goes (x.updateVisible h fun xs => ((change xs).1, (change xs).2.mapError .crash)) := by
  unfold updateVisible
  rw [checkReady_of_ready hr]
  cases hc : x.checkVisible h with
  | error err => exact Refuses.goes hr ⟨err, refuses_of_checkVisible hc, rfl⟩
  | ok u =>
    unfold Memory.find
    cases hf : x.memory.live.find? h.id with
    | none => exact Refuses.goes hr ⟨_, rfl, rfl⟩
    | some a =>
      dsimp only
      unfold Allocation.view
      rw [(hx.memory.allocations hf).fits]
      cases hk : a.check e h.length with
      | error err =>
        exact ⟨rfl, rfl, rfl, .same, hr.trans (Lifecycle.after_of_check hk).symm⟩
      | ok v =>
        refine ⟨rfl, rfl, rfl, .entry hf (a.shape_store _), hr.trans ?_⟩
        show Lifecycle.ready = Lifecycle.after ((change _).2.mapError .crash)
        cases (change (Offload.Memory.decode h.length a.block.bytes)).2 <;> rfl

theorem Sound.goes_wait : x.Goes x.wait := by
  unfold wait
  rw [checkReady_of_ready hr]
  exact hx.goes_command hr "wait" _ .same

end

/-! ## in any state -/

theorem copy_of_checkReady {err : Error} (h : x.checkReady = .error err) (a : Ambient)
    (dst : Target e) (src : Source e) (count : Nat) : x.copy a dst src count = (dst, x.refuse err) := by
  unfold copy checkCopy
  rw [h]

theorem perform_of_checkReady {err : Error} (h : x.checkReady = .error err) (a : Ambient) {c : Call}
    (hc : c.isTeardown = false) : x.perform a c = x.refuse err := by
  cases c with
  | allocate e count space alignment =>
    have hp : x.allocate a e count space alignment = x.refuse err := by
      unfold allocate
      rw [h]
    exact hp
  | deallocate e g =>
    have hp : x.deallocate g = x.refuse err := by
      unfold Executor.deallocate
      rw [h]
    exact hp
  | copy e dst src count => exact congrArg Prod.snd (copy_of_checkReady h a dst src count)
  | submit k width output inputs count =>
    have hp : x.submit a k width output inputs count = x.refuse err := by
      unfold submit checkSubmit
      rw [h]
    exact hp
  | read e g =>
    have hp : x.readVisible g = x.refuse err := by
      unfold readVisible
      rw [h]
    exact hp
  | update e α g change =>
    have hp (f : List (Lane e) → List (Lane e) × Outcome α) : x.updateVisible g f = x.refuse err := by
      unfold updateVisible
      rw [h]
    exact hp fun xs => ((change xs).1, (change xs).2.mapError .crash)
  | wait =>
    have hp : x.wait = x.refuse err := by
      unfold wait
      rw [h]
    exact hp
  | teardown => cases hc

theorem teardown_eq (h : x.state ≠ .tornDown) :
    x.teardown = ⟨x.shutDown.1, .ok (), x.shutDown.2⟩ := by
  unfold teardown
  split
  · rename_i ht
    exact absurd ht h
  · rfl

theorem teardown_of_tornDown (h : x.state = .tornDown) : x.teardown = x.refuse .executorTornDown := by
  unfold teardown
  rw [h]

theorem Sound.shutDown (hx : x.Sound) : x.shutDown.1.Sound where
  memory := x.memory.sound_releaseAll
  limit_eq := hx.limit_eq
  open_of h := absurd rfl h
  empty_of _ := ⟨rfl, rfl⟩

/-- There is nothing else that a call can do. -/
theorem Sound.perform_effect (hx : x.Sound) (a : Ambient) (c : Call) : x.Effect c (x.perform a c) := by
  -- the end is the one call that does not ask whether the executor is ready
  by_cases ht : c.isTeardown = true
  · cases c <;> cases ht
    by_cases hs : x.state = .tornDown
    · have hd : x.perform a .teardown = x.refuse .executorTornDown := teardown_of_tornDown hs
      rw [hd]
      exact .stopped (by rw [checkReady, hs])
    · have hd : x.perform a .teardown = ⟨x.shutDown.1, .ok (), x.shutDown.2⟩ := teardown_eq hs
      rw [hd]
      exact .ended hs
  · rw [Bool.not_eq_true] at ht
    cases hc : x.checkReady with
    | error err =>
      rw [perform_of_checkReady hc a ht]
      exact .stopped hc
    | ok u =>
      have hr := checkReady_eq_ok_iff.mp hc
      cases c with
      | allocate e count space alignment =>
        rcases allocate_cases hr a e count space alignment with h | ⟨actual, hs, room, h⟩
        · exact .refused hr h
        · have hp : x.perform a (.allocate e count space alignment) = _ := h
          rw [hp]
          exact .allocated hr hs room
      | deallocate e g =>
        rcases hx.deallocate_cases hr g with h | ⟨b, ho, hf, hs, h⟩
        · exact .refused hr h
        · have hp : x.perform a (.deallocate e g) = _ := h
          rw [hp]
          exact .freed hr ho hf hs
      | copy e dst src count => exact .goes hr rfl (hx.goes_copy hr a dst src count)
      | submit k width output inputs count =>
        exact .goes hr rfl (hx.goes_submit hr a k width output inputs count)
      | read e g => exact .goes hr rfl (hx.goes_readVisible hr g)
      | update e α g change => exact .goes hr rfl (hx.goes_updateVisible hr g change)
      | wait => exact .goes hr rfl (hx.goes_wait hr)
      | teardown => cases ht

/-! ## what every call keeps -/

section
variable {c : Call} {r : Reply c.Value}

theorem Effect.sound (h : x.Effect c r) (hx : x.Sound) : r.executor.Sound := by
  cases h with
  | stopped _ => exact hx
  | refused _ hd =>
    obtain ⟨err, -, rfl⟩ := hd
    exact hx
  | goes hr _ hg =>
    refine ⟨hg.rewrites.sound hx.memory, ?_, fun _ => hg.isOpen_eq.trans (hx.open_of_ready hr), ?_⟩
    · rw [hg.rewrites.limit_eq, hg.device_eq, hx.limit_eq]
    · intro ht
      rw [hg.state_eq] at ht
      unfold Lifecycle.after at ht
      split at ht <;> cases ht
  | @allocated e count _ space actual _ hr hs room =>
    have hroom : x.memory.checkRoom (Allocation.zeroed space e count actual).block.size space = .ok () := by
      rw [hs.size_eq]
      exact room
    exact ⟨hx.memory.enlist hs hroom, (x.memory.limit_enlist _).trans hx.limit_eq, hx.open_of,
      fun ht => nomatch hr.symm.trans ht⟩
  | freed hr _ hf _ =>
    exact ⟨hx.memory.release hf, (x.memory.limit_release _ _).trans hx.limit_eq, hx.open_of,
      fun ht => nomatch hr.symm.trans ht⟩
  | ended _ => exact hx.shutDown

theorem Effect.id_eq (h : x.Effect c r) : r.executor.id = x.id := by
  cases h with
  | refused _ hd =>
    obtain ⟨err, -, rfl⟩ := hd
    rfl
  | goes _ _ hg => exact hg.id_eq
  | _ => rfl

theorem Effect.device_eq (h : x.Effect c r) : r.executor.device = x.device := by
  cases h with
  | refused _ hd =>
    obtain ⟨err, -, rfl⟩ := hd
    rfl
  | goes _ _ hg => exact hg.device_eq
  | _ => rfl

end

/-- A new executor is sound. -/
theorem sound_start {id : Nat} {setup : Setup} {x : Executor} {events : List Event}
    (h : start id setup = .ok (x, events)) :
    x.Sound ∧ x.id = id ∧ x.state = .ready ∧ x.memory = .fresh x.device.limit := by
  unfold start at h
  cases hd : setup.descriptor with
  | error err =>
    rw [hd] at h
    cases h
  | ok device =>
    cases hv : device.validate with
    | error err =>
      simp only [hd, hv] at h
      cases h
    | ok u =>
      simp only [hd, hv] at h
      cases h
      exact ⟨⟨Memory.sound_fresh _, rfl, fun _ => rfl, fun h => nomatch h⟩, rfl, rfl, rfl⟩

end Executor

end Accelerator

end Offload
