import Offload.Proofs.Accelerator.Accounting
import Offload.Proofs.Accelerator.Lifecycle

/-!
# What a log says of memory

The events of an executor tell what it holds.  Nothing is assumed of the handles that calls are given, nor
of what is recorded and what is not.

* `Event.allocated?`, `Event.freed?`   the class and the bytes that an event says were allocated or freed;
* `Event.leaked?`, `Event.tornDown?`   what an event says of an end;
* `Remains`         what was allocated and not freed, by count, by bytes or by any other measure;
* `Recorded`        every record of an allocation is followed by that allocation;
* `Executor.log`    the events of calls one after the other;
* `Written`         what a call writes, by what it does; `Sound.perform_written` says that there is nothing
                    else;
* `Books`           that a log and an executor agree, the invariant.

What kernels have to say (`Event.remark`) is theirs, and says nothing of memory here.
-/

namespace Offload

/-! ## events -/

namespace Event

/-- whether an event is about allocations or the end of an executor -/
def onMemory : Event → Bool
  | deviceBufferAllocated .. | deviceBufferFreed .. | allocationsLeaked .. | acceleratorTornDown ..
  | measure (.allocation ..) => true
  | _ => false

/-- whether an event is the record of an allocation -/
def recordsAllocation : Event → Bool
  | measure (.allocation ..) => true
  | _ => false

def allocated? : Event → Option (MemoryClass × Nat)
  | deviceBufferAllocated _ _ space count e => some (space, count * e.bytes)
  | _ => none

def freed? : Event → Option (MemoryClass × Nat)
  | deviceBufferFreed _ _ space size => some (space, size)
  | _ => none

/-- the executor, the allocations and the bytes -/
def leaked? : Event → Option (Nat × Nat × Nat)
  | allocationsLeaked executor allocations bytes => some (executor, allocations, bytes)
  | _ => none

/-- the executor -/
def tornDown? : Event → Option Nat
  | acceleratorTornDown executor _ => some executor
  | _ => none

end Event

namespace Accelerator

/-! ## logs -/

/-- Nothing about memory is said. -/
def Quiet (es : List Event) : Prop := ∀ ev ∈ es, ev.onMemory = false

section
variable {es fs : List Event}

theorem quiet_nil : Quiet [] := fun _ h => nomatch h

theorem quiet_singleton {ev : Event} (h : ev.onMemory = false) : Quiet [ev] :=
  List.forall_mem_singleton.mpr h

theorem Quiet.append (h : Quiet es) (k : Quiet fs) : Quiet (es ++ fs) :=
  List.forall_mem_append.mpr ⟨h, k⟩

theorem quiet_measured {s : Trace.Settings} {m : Trace.Measure} (h : (Event.measure m).onMemory = false) :
    Quiet (Trace.measured s m) := by
  unfold Trace.measured
  split
  · exact quiet_singleton h
  · exact quiet_nil

theorem quiet_ended (s : Trace.Settings) (span : Trace.Span) (us : Nat) :
    Quiet (Trace.ended s span us) := by
  unfold Trace.ended
  split
  · exact quiet_singleton rfl
  · exact quiet_nil

/-- What is quiet is passed over by whatever looks at memory alone. -/
theorem Quiet.filterMap {β : Type} (h : Quiet es) {f : Event → Option β}
    (hf : ∀ ev : Event, ev.onMemory = false → f ev = none) : es.filterMap f = [] :=
  List.filterMap_eq_nil_iff.mpr fun ev hev => hf ev (h ev hev)

theorem Quiet.allocated (h : Quiet es) : es.filterMap Event.allocated? = [] :=
  h.filterMap fun ev hev => by cases ev <;> first | rfl | cases hev

theorem Quiet.freed (h : Quiet es) : es.filterMap Event.freed? = [] :=
  h.filterMap fun ev hev => by cases ev <;> first | rfl | cases hev

theorem Quiet.leaked (h : Quiet es) : es.filterMap Event.leaked? = [] :=
  h.filterMap fun ev hev => by cases ev <;> first | rfl | cases hev

theorem Quiet.tornDown (h : Quiet es) : es.filterMap Event.tornDown? = [] :=
  h.filterMap fun ev hev => by cases ev <;> first | rfl | cases hev

end

/-- a sum over classes and bytes -/
def weigh (f : MemoryClass → Nat → Nat) (l : List (MemoryClass × Nat)) : Nat :=
  (l.map fun p => f p.1 p.2).sum

/-- all bytes -/
def bytes (l : List (MemoryClass × Nat)) : Nat := (l.map (·.2)).sum

theorem weigh_append (f : MemoryClass → Nat → Nat) (l k : List (MemoryClass × Nat)) :
    weigh f (l ++ k) = weigh f l + weigh f k := by
  unfold weigh
  rw [List.map_append, List.sum_append]

theorem weigh_one (l : List (MemoryClass × Nat)) : weigh (fun _ _ => 1) l = l.length := by
  unfold weigh
  rw [List.map_const', List.sum_replicate, Nat.nsmul_eq_mul, Nat.mul_one]

theorem weigh_bytes (l : List (MemoryClass × Nat)) : weigh (fun _ n => n) l = bytes l := rfl

theorem weigh_class (space : MemoryClass) (l : List (MemoryClass × Nat)) :
    weigh (fun s n => if s = space then n else 0) l = bytes (l.filter (·.1 = space)) :=
  sum_map_ite_zero (fun p : MemoryClass × Nat => p.1 = space) (fun p => p.2) l

/-- So much of what was allocated was not freed. -/
def Remains (f : MemoryClass → Nat → Nat) (es : List Event) (n : Nat) : Prop :=
  n + weigh f (es.filterMap Event.freed?) = weigh f (es.filterMap Event.allocated?)

section
variable {f : MemoryClass → Nat → Nat} {es fs : List Event} {n : Nat}

theorem remains_of_quiet (h : Quiet es) : Remains f es 0 := by
  unfold Remains
  rw [h.freed, h.allocated]
  rfl

/-- What comes after adds its own. -/
theorem Remains.append (h : Remains f es n) {m : Nat}
    (hm : m + weigh f (fs.filterMap Event.freed?) = n + weigh f (fs.filterMap Event.allocated?)) :
    Remains f (es ++ fs) m := by
  unfold Remains at *
  rw [List.filterMap_append, List.filterMap_append, weigh_append, weigh_append]
  omega

theorem Remains.append_of_unmoved (h : Remains f es n) (ha : fs.filterMap Event.allocated? = [])
    (hf : fs.filterMap Event.freed? = []) : Remains f (es ++ fs) n :=
  h.append (by rw [ha, hf])

end

/-- Nothing is said of an end. -/
def Silent (es : List Event) : Prop :=
  es.filterMap Event.leaked? = [] ∧ es.filterMap Event.tornDown? = []

theorem Silent.append {es fs : List Event} (h : Silent es) (k : Silent fs) : Silent (es ++ fs) := by
  constructor
  · rw [List.filterMap_append, h.1, k.1]
    rfl
  · rw [List.filterMap_append, h.2, k.2]
    rfl

/-- Every record of an allocation is followed by that allocation, with the same size and the same class. -/
inductive Recorded : List Event → Prop
  | nil : Recorded []
  | record {alignment us executor buffer count : Nat} {space : MemoryClass} {e : Element} {es : List Event}
      (rest : Recorded es) :
      Recorded (.measure (.allocation (count * e.bytes) alignment space.name us) ::
        .deviceBufferAllocated executor buffer space count e :: es)
  | other {ev : Event} {es : List Event} (h : ev.recordsAllocation = false) (rest : Recorded es) :
      Recorded (ev :: es)

section
variable {es fs : List Event}

theorem Recorded.append (h : Recorded es) (k : Recorded fs) : Recorded (es ++ fs) := by
  induction h with
  | nil => exact k
  | record _ ih => exact .record ih
  | other hev _ ih => exact .other hev ih

theorem Quiet.recorded (h : Quiet es) : Recorded es := by
  induction es with
  | nil => exact .nil
  | cons ev es ih =>
    obtain ⟨hev, hes⟩ := List.forall_mem_cons.mp h
    refine .other ?_ (ih hes)
    cases ev with
    | measure m => cases m <;> first | rfl | cases hev
    | _ => rfl

end

namespace Executor

variable {α : Type} {e : Element} {x : Executor}

/-! ## calls that neither allocate nor free -/

theorem quiet_remarks (notes : List Trace.Note) : Quiet (notes.map Event.remark) := by
  intro ev hev
  obtain ⟨note, -, rfl⟩ := List.mem_map.mp hev
  rfl

theorem quiet_command (x : Executor) (label : String) (job : Job α) : Quiet (x.command label job).events := by
  unfold command
  dsimp only
  split
  · exact quiet_remarks _
  · split
    · exact (quiet_remarks _).append (quiet_singleton rfl)
    · exact (quiet_remarks _).append (quiet_singleton rfl)

theorem quiet_transferred (a : Ambient) (e : Element) (count : Nat) (direction : String) :
    Quiet (transferred a e count direction) := quiet_measured rfl

theorem quiet_move (x : Executor) (a : Ambient) (count : Nat) (dst : Target e) (src : Source e) :
    Quiet (x.move a count dst src).2.events := by
  cases dst <;> cases src
  · exact quiet_transferred _ _ _ _
  all_goals
    unfold move
    dsimp only
    split
    · exact x.quiet_command _ _
    · exact (x.quiet_command _ _).append (quiet_transferred _ _ _ _)

theorem quiet_copy (x : Executor) (a : Ambient) (dst : Target e) (src : Source e) (count : Nat) :
    Quiet (x.copy a dst src count).2.events := by
  cases hc : x.checkCopy dst src count with
  | error err =>
    rw [copy_of_error a hc]
    exact quiet_nil
  | ok u =>
    rcases Nat.eq_zero_or_pos count with rfl | hn
    · rw [copy_zero a hc]
      exact quiet_nil
    · rw [copy_of_pos a hc hn]
      exact x.quiet_move a count dst src

theorem quiet_submit (x : Executor) (a : Ambient) (k : Kernel) (width : Nat) (output : Handle k.output)
    (inputs : List (Handle k.input)) (count : Nat) : Quiet (x.submit a k width output inputs count).events := by
  cases hc : x.checkSubmit k width output inputs count with
  | error err =>
    rw [submit_of_error a hc]
    exact quiet_nil
  | ok s =>
    rcases Nat.eq_zero_or_pos count with rfl | hn
    · rw [submit_zero a hc]
      exact quiet_nil
    · rw [submit_of_pos a hc hn]
      dsimp only
      refine Quiet.append (Quiet.append (x.quiet_command _ _) ?_) (quiet_ended _ _ _)
      split
      · exact quiet_measured rfl
      · exact quiet_nil

theorem quiet_readVisible (x : Executor) (h : Handle e) : Quiet (x.readVisible h).events := by
  unfold readVisible
  split
  · exact quiet_nil
  · split <;> exact quiet_nil

theorem quiet_updateVisible (x : Executor) (h : Handle e)
    (change : List (Lane e) → List (Lane e) × Outcome α) : Quiet (x.updateVisible h change).events := by
  unfold updateVisible
  split
  · exact quiet_nil
  · split
    · exact quiet_nil
    · split
      · exact quiet_nil
      · split <;> exact quiet_nil

theorem quiet_wait (x : Executor) : Quiet x.wait.events := by
  unfold wait
  split
  · exact quiet_nil
  · exact x.quiet_command _ _

theorem quiet_of_keepsLive (x : Executor) (a : Ambient) {c : Call} (h : c.keepsLive = true) :
    Quiet (x.perform a c).events := by
  cases c with
  | copy e dst src count => exact x.quiet_copy a dst src count
  | submit k width output inputs count => exact x.quiet_submit a k width output inputs count
  | read e g => exact x.quiet_readVisible g
  | update e α g change =>
    exact x.quiet_updateVisible g fun xs => ((change xs).1, (change xs).2.mapError .crash)
  | wait => exact x.quiet_wait
  | _ => cases h

/-! ## what a call writes -/

/-- what a call does with what is live, and what it writes of that -/
inductive Written (x : Executor) : (c : Call) → Reply c.Value → Prop
  /-- neither allocated nor freed anything -/
  | quiet {c : Call} {r : Reply c.Value} (id_eq : r.executor.id = x.id)
      (tornDown : r.executor.state = .tornDown ↔ x.state = .tornDown)
      (rewrites : x.memory.Rewrites r.executor.memory) (events : Quiet r.events) : Written x c r
  | allocated {e : Element} {count alignment actual : Nat} {space : MemoryClass} {settings : Trace.Settings}
      {us : Nat} (sound : (Allocation.zeroed space e count actual).Sound) (ready : x.state = .ready) :
      Written x (.allocate e count space alignment)
        ⟨{ x with memory := x.memory.enlist (Allocation.zeroed space e count actual) },
          .ok ⟨x.memory.nextId, count, space, x.id⟩,
          Trace.measured settings (.allocation (count * e.bytes) actual space.name us) ++
            [.deviceBufferAllocated x.id x.memory.nextId space count e]⟩
  | freed {e : Element} {h : Handle e} {b : Allocation} (ready : x.state = .ready)
      (find : x.memory.live.find? h.id = some b) :
      Written x (.deallocate e h)
        ⟨{ x with memory := x.memory.release h.id b }, .ok (),
          [.deviceBufferFreed x.id h.id b.space b.block.size]⟩
  | ended (state : x.state ≠ .tornDown) : Written x .teardown ⟨x.shutDown.1, .ok (), x.shutDown.2⟩

theorem written_refuse (x : Executor) (c : Call) (err : Error) : x.Written c (x.refuse err) :=
  .quiet rfl Iff.rfl .same quiet_nil

theorem not_tornDown_of_ready (h : x.state = .ready) : x.state ≠ .tornDown := by
  rw [h]
  exact fun ht => (nomatch ht)

theorem Goes.not_tornDown {r : Reply α} (h : x.Goes r) : r.executor.state ≠ .tornDown := by
  rw [h.state_eq]
  unfold Lifecycle.after
  split <;> exact fun ht => (nomatch ht)

theorem Refuses.written {c : Call} {r : Reply c.Value} (h : x.Refuses r) : x.Written c r := by
  obtain ⟨err, -, rfl⟩ := h
  exact x.written_refuse c err

theorem Effect.written {c : Call} {r : Reply c.Value} (h : x.Effect c r) (hk : c.keepsLive = true)
    (hq : Quiet r.events) : x.Written c r := by
  cases h with
  | stopped _ => exact x.written_refuse c _
  | refused _ hd => exact hd.written
  | goes hr _ hg =>
    exact .quiet hg.id_eq (iff_of_false hg.not_tornDown (not_tornDown_of_ready hr)) hg.rewrites hq
  | _ => cases hk

/-- Nothing else is written. -/
theorem Sound.perform_written (hx : x.Sound) (a : Ambient) (c : Call) : x.Written c (x.perform a c) := by
  have hw := (hx.perform_effect a c).written
  cases c with
  | allocate e count space alignment =>
    cases hc : x.checkReady with
    | error err =>
      rw [perform_of_checkReady hc a rfl]
      exact x.written_refuse _ err
    | ok u =>
      have hr := checkReady_eq_ok_iff.mp hc
      show x.Written (.allocate e count space alignment) (x.allocate a e count space alignment)
      rcases allocate_cases hr a e count space alignment with h | ⟨actual, hs, -, h⟩
      · exact h.written
      · rw [h]
        exact .allocated hs hr
  | deallocate e g =>
    cases hc : x.checkReady with
    | error err =>
      rw [perform_of_checkReady hc a rfl]
      exact x.written_refuse _ err
    | ok u =>
      have hr := checkReady_eq_ok_iff.mp hc
      show x.Written (.deallocate e g) (x.deallocate g)
      rcases hx.deallocate_cases hr g with h | ⟨b, -, hf, hs, h⟩
      · exact h.written
      · rw [h, ← hs]
        exact .freed hr hf
  | teardown =>
    show x.Written .teardown x.teardown
    by_cases hs : x.state = .tornDown
    · rw [teardown_of_tornDown hs]
      exact x.written_refuse _ _
    · rw [teardown_eq hs]
      exact .ended hs
  | _ => exact hw rfl (x.quiet_of_keepsLive a rfl)

/-- A call that fails says nothing of memory. -/
theorem Written.quiet_of_error {c : Call} {r : Reply c.Value} (h : x.Written c r) {f : Failure Error}
    (he : r.result = .error f) : Quiet r.events := by
  cases h with
  | quiet _ _ _ hq => exact hq
  | _ => cases he

/-! ## the books -/

/-- Everything that was allocated and not freed is reported as leaked, if it is anything, and there is one
end. -/
def Settled (executor : Nat) (es : List Event) : Prop :=
  ∃ n b, Remains (fun _ _ => 1) es n ∧ Remains (fun _ size => size) es b ∧
    es.filterMap Event.leaked? = (if 0 < n then [(executor, n, b)] else []) ∧
    es.filterMap Event.tornDown? = [executor]

/-- What was logged so far is what an executor holds. -/
structure Books (x : Executor) (es : List Event) : Prop where
  live : x.state ≠ .tornDown → ∀ f, Remains f es (x.memory.live.total fun b => f b.space b.block.size)
  silent : x.state ≠ .tornDown → Silent es
  settled : x.state = .tornDown → Settled x.id es
  recorded : Recorded es

section
variable {es fs : List Event} {y : Executor}

theorem Settled.append {executor : Nat} (h : Settled executor es) (hq : Quiet fs) :
    Settled executor (es ++ fs) := by
  obtain ⟨n, b, hn, hb, hl, ht⟩ := h
  refine ⟨n, b, hn.append_of_unmoved hq.allocated hq.freed, hb.append_of_unmoved hq.allocated hq.freed,
    ?_, ?_⟩
  · rw [List.filterMap_append, hq.leaked, List.append_nil, hl]
  · rw [List.filterMap_append, hq.tornDown, List.append_nil, ht]

/-- Before the end, what comes and goes is what is logged. -/
theorem Books.append (h : Books x es) (hx : x.state ≠ .tornDown) (hy : y.state ≠ .tornDown)
    (live : ∀ f : MemoryClass → Nat → Nat,
      (y.memory.live.total fun b => f b.space b.block.size) + weigh f (fs.filterMap Event.freed?) =
        (x.memory.live.total fun b => f b.space b.block.size) + weigh f (fs.filterMap Event.allocated?))
    (silent : Silent fs) (recorded : Recorded fs) : Books y (es ++ fs) where
  live _ f := (h.live hx f).append (live f)
  silent _ := (h.silent hx).append silent
  settled ht := absurd ht hy
  recorded := h.recorded.append recorded

theorem Books.quiet (h : Books x es) (id_eq : y.id = x.id)
    (tornDown : y.state = .tornDown ↔ x.state = .tornDown) (rewrites : x.memory.Rewrites y.memory)
    (hq : Quiet fs) : Books y (es ++ fs) := by
  by_cases hs : x.state = .tornDown
  · have hy : y.state = .tornDown := tornDown.mpr hs
    refine ⟨fun h => absurd hy h, fun h => absurd hy h, fun _ => ?_, h.recorded.append hq.recorded⟩
    rw [id_eq]
    exact (h.settled hs).append hq
  · refine h.append hs (mt tornDown.mp hs) (fun f => ?_) ⟨hq.leaked, hq.tornDown⟩ hq.recorded
    rw [hq.freed, hq.allocated]
    refine congrArg (· + weigh f []) (rewrites.total_eq fun a b hab => ?_)
    simp only [Allocation.shape, Allocation.Shape.mk.injEq] at hab
    rw [hab.1, hab.2.2.2.1]

/-- With room for whatever the settings say of the record. -/
theorem Books.allocated (h : Books x es) (hx : x.Sound) (hs : x.state ≠ .tornDown) {e : Element}
    {count actual : Nat} {space : MemoryClass} (sound : (Allocation.zeroed space e count actual).Sound)
    (settings : Trace.Settings) (us : Nat) :
    Books { x with memory := x.memory.enlist (Allocation.zeroed space e count actual) }
      (es ++ (Trace.measured settings (.allocation (count * e.bytes) actual space.name us) ++
        [.deviceBufferAllocated x.id x.memory.nextId space count e])) := by
  have hlive (f : MemoryClass → Nat → Nat) := Registry.total_insert_new hx.memory.find?_nextId
    (Allocation.zeroed space e count actual) fun b => f b.space b.block.size
  simp only [sound.size_eq] at hlive
  unfold Trace.measured
  split
  · exact h.append hs hs hlive ⟨rfl, rfl⟩ (.record .nil)
  · exact h.append hs hs hlive ⟨rfl, rfl⟩ (.other rfl .nil)

theorem Books.freed (h : Books x es) (hs : x.state ≠ .tornDown) {id : Nat} {b : Allocation}
    (find : x.memory.live.find? id = some b) :
    Books { x with memory := x.memory.release id b }
      (es ++ [.deviceBufferFreed x.id id b.space b.block.size]) := by
  refine h.append hs hs (fun f => ?_) ⟨rfl, rfl⟩ (.other rfl .nil)
  have htotal := x.memory.live.total_erase id fun b => f b.space b.block.size
  rw [find, Option.elim_some] at htotal
  show (x.memory.release id b).live.total _ + _ = _
  rw [Memory.live_release]
  exact htotal

theorem shutDown_events (x : Executor) :
    x.shutDown.2 = [.workerExited] ++
      (if 0 < x.memory.count then [.allocationsLeaked x.id x.memory.count x.memory.bytes] else []) ++
        [.acceleratorTornDown x.id x.device.name] := rfl

/-- what is written at the end -/
theorem shutDown_written (x : Executor) :
    x.shutDown.2.filterMap Event.allocated? = [] ∧ x.shutDown.2.filterMap Event.freed? = [] ∧
      x.shutDown.2.filterMap Event.leaked? =
        (if 0 < x.memory.count then [(x.id, x.memory.count, x.memory.bytes)] else []) ∧
      x.shutDown.2.filterMap Event.tornDown? = [x.id] ∧ Recorded x.shutDown.2 := by
  have hend : Recorded [.acceleratorTornDown x.id x.device.name] :=
    .other rfl .nil
  have hleak : Recorded (.allocationsLeaked x.id x.memory.count x.memory.bytes ::
      [.acceleratorTornDown x.id x.device.name]) := .other rfl hend
  rw [shutDown_events]
  by_cases hn : 0 < x.memory.count
  · rw [if_pos hn, if_pos hn]
    exact ⟨rfl, rfl, rfl, rfl, .other rfl hleak⟩
  · rw [if_neg hn, if_neg hn]
    exact ⟨rfl, rfl, rfl, rfl, .other rfl hend⟩

theorem Books.ended (h : Books x es) (hx : x.Sound) (hs : x.state ≠ .tornDown) :
    Books x.shutDown.1 (es ++ x.shutDown.2) := by
  have hcount := h.live hs fun _ _ => 1
  have hbytes := h.live hs fun _ size => size
  rw [← Registry.size_eq_total] at hcount
  rw [← hx.memory.bytes_eq] at hbytes
  obtain ⟨hsilent, hnone⟩ := h.silent hs
  obtain ⟨hcome, hgo, hleaked, hend, hrecorded⟩ := x.shutDown_written
  refine ⟨fun h => absurd rfl h, fun h => absurd rfl h, fun _ => ?_, h.recorded.append hrecorded⟩
  refine ⟨x.memory.count, x.memory.bytes, hcount.append_of_unmoved hcome hgo,
    hbytes.append_of_unmoved hcome hgo, ?_, ?_⟩
  · rw [List.filterMap_append, hsilent, hleaked]
    rfl
  · rw [List.filterMap_append, hnone, hend]
    rfl

/-- The log of a call is entered as it is written. -/
theorem Books.perform (h : Books x es) (hx : x.Sound) {c : Call} {r : Reply c.Value} (hw : x.Written c r) :
    Books r.executor (es ++ r.events) := by
  cases hw with
  | quiet id_eq tornDown rewrites hq => exact h.quiet id_eq tornDown rewrites hq
  | allocated sound ready => exact h.allocated hx (not_tornDown_of_ready ready) sound _ _
  | freed ready find => exact h.freed (not_tornDown_of_ready ready) find
  | ended hs => exact h.ended hx hs

end

/-! ## whole runs -/

/-- the events of all calls, in order -/
def log (x : Executor) : List (Ambient × Call) → List Event
  | [] => []
  | (a, c) :: cs => (x.perform a c).events ++ (x.perform a c).executor.log cs

theorem log_cons (x : Executor) (a : Ambient) (c : Call) (cs : List (Ambient × Call)) :
    x.log ((a, c) :: cs) = (x.perform a c).events ++ (x.perform a c).executor.log cs := rfl

theorem Books.run {es : List Event} (h : Books x es) (hx : x.Sound) (cs : List (Ambient × Call)) :
    Books (x.run cs) (es ++ x.log cs) := by
  induction cs generalizing x es with
  | nil =>
    show Books x (es ++ [])
    rw [List.append_nil]
    exact h
  | cons d cs ih =>
    rw [log_cons, ← List.append_assoc]
    exact ih (h.perform hx (hx.perform_written d.1 d.2)) (hx.perform d.1 d.2)

theorem Sound.id_run (hx : x.Sound) (cs : List (Ambient × Call)) : (x.run cs).id = x.id := by
  induction cs generalizing x with
  | nil => rfl
  | cons d cs ih => exact (ih (hx.perform d.1 d.2)).trans (hx.perform_effect d.1 d.2).id_eq

/-- A new executor holds nothing, and its log says nothing of memory. -/
theorem books_start {id : Nat} {setup : Setup} {events : List Event} (h : start id setup = .ok (x, events)) :
    Books x events := by
  obtain ⟨-, -, hr, hm⟩ := sound_start h
  have hs : x.state ≠ .tornDown := not_tornDown_of_ready hr
  have hq : Quiet events := by
    unfold start at h
    split at h
    · cases h
    · split at h <;> cases h
      exact quiet_singleton rfl
  refine ⟨fun _ f => ?_, fun _ => ⟨hq.leaked, hq.tornDown⟩, fun ht => absurd ht hs, hq.recorded⟩
  rw [hm]
  exact remains_of_quiet hq

theorem drop_of_tornDown (h : x.state = .tornDown) : x.drop = [] := by
  unfold drop
  rw [h]

theorem drop_eq (h : x.state ≠ .tornDown) : x.drop = x.shutDown.2 := by
  unfold drop
  split
  · rename_i ht
    exact absurd ht h
  · rfl

/-- With what is logged when an executor goes away, everything is settled. -/
theorem Books.drop {es : List Event} (h : Books x es) (hx : x.Sound) : Settled x.id (es ++ x.drop) := by
  by_cases hs : x.state = .tornDown
  · rw [drop_of_tornDown hs, List.append_nil]
    exact h.settled hs
  · rw [drop_eq hs]
    exact (h.ended hx hs).settled rfl

/-- **The log tells what is live.**  After any calls of a new executor and before its end, what it holds is
what its log says was allocated less what it says was freed, in number, in bytes and in bytes of each
class, and nothing was reported as leaked or torn down.  A call that fails says nothing of this, and a
record of an allocation is never without the allocation, of that size and that class.  The end comes once,
by a call or when the executor goes away, and reports as leaked just what the whole log says was not freed,
if that is anything. -/
theorem log_tells_live {id : Nat} {setup : Setup} {events : List Event}
    (h : start id setup = .ok (x, events)) (cs : List (Ambient × Call)) :
    let y := x.run cs
    let es := events ++ x.log cs
    let whole := es ++ y.drop
    (y.state ≠ .tornDown →
      let allocated := es.filterMap Event.allocated?
      let freed := es.filterMap Event.freed?
      y.memory.count + freed.length = allocated.length ∧
      y.memory.bytes + bytes freed = bytes allocated ∧
      (∀ space, y.memory.bytesOf space + bytes (freed.filter (·.1 = space)) =
        bytes (allocated.filter (·.1 = space))) ∧
      es.filterMap Event.leaked? = [] ∧ es.filterMap Event.tornDown? = []) ∧
    (∀ a c f, (y.perform a c).result = .error f →
      (y.perform a c).events.filterMap Event.allocated? = [] ∧
        (y.perform a c).events.filterMap Event.freed? = []) ∧
    Recorded es ∧
    (∃ n b, n + (whole.filterMap Event.freed?).length = (whole.filterMap Event.allocated?).length ∧
      b + bytes (whole.filterMap Event.freed?) = bytes (whole.filterMap Event.allocated?) ∧
      whole.filterMap Event.leaked? = (if 0 < n then [(id, n, b)] else []) ∧
      whole.filterMap Event.tornDown? = [id]) ∧
    (y.state ≠ .tornDown → ∀ a, (y.perform a .teardown).events = y.drop ∧
      (y.perform a .teardown).executor.drop = []) ∧
    (y.state = .tornDown → y.drop = []) := by
  intro y es whole
  obtain ⟨hx, hid, -, -⟩ := sound_start h
  have hy : y.Sound := hx.run cs
  have hbooks : Books y es := (books_start h).run hx cs
  refine ⟨fun hs => ?_, fun a c f hf => ?_, hbooks.recorded, ?_, fun hs a => ?_, drop_of_tornDown⟩
  · intro allocated freed
    have hcount := hbooks.live hs fun _ _ => 1
    have hbytes := hbooks.live hs fun _ size => size
    refine ⟨?_, ?_, fun space => ?_, hbooks.silent hs⟩
    · rw [← Registry.size_eq_total, Remains, weigh_one, weigh_one] at hcount
      exact hcount
    · rw [← hy.memory.bytes_eq, Remains, weigh_bytes, weigh_bytes] at hbytes
      exact hbytes
    · have hclass := hbooks.live hs fun s n => if s = space then n else 0
      rw [Remains, weigh_class, weigh_class] at hclass
      rw [hy.memory.counted]
      exact hclass
  · have hq := (hy.perform_written a c).quiet_of_error hf
    exact ⟨hq.allocated, hq.freed⟩
  · have hown : y.id = id := (hx.id_run cs).trans hid
    obtain ⟨n, b, hn, hb, hleaked, hend⟩ := hbooks.drop hy
    rw [Remains, weigh_one, weigh_one] at hn
    rw [Remains, weigh_bytes, weigh_bytes] at hb
    rw [hown] at hleaked hend
    exact ⟨n, b, hn, hb, hleaked, hend⟩
  · have hp : y.perform a .teardown = ⟨y.shutDown.1, .ok (), y.shutDown.2⟩ := teardown_eq hs
    rw [hp, drop_eq hs]
    exact ⟨rfl, drop_of_tornDown rfl⟩

/-- A buffer without elements is leaked like any other. -/
theorem log_tells_live_empty :
    let cs : List (Ambient × Call) := [(.plain, .allocate .u16 3 .hostVisible 0),
      (.plain, .allocate .u8 0 .deviceExclusive 0), (.plain, .deallocate .u16 ⟨1, 3, .hostVisible, 1⟩)]
    ∃ x events, start 1 .standard = .ok (x, events) ∧ (x.run cs).memory.count = 1 ∧
      (events ++ x.log cs ++ (x.run cs).drop).filterMap Event.leaked? = [(1, 1, 0)] := by
  intro cs
  have h : start 1 .standard = .ok (_, _) := rfl
  obtain ⟨hlive, -, -, ⟨n, b, hn, hb, hleaked, -⟩, -⟩ := log_tells_live h cs
  have hcount := (hlive (fun ht => nomatch ht)).1
  have hone : n + 1 = 2 := hn
  have hzero : b + 6 = 6 := hb
  obtain rfl : n = 1 := by omega
  obtain rfl : b = 0 := by omega
  exact ⟨_, _, h, Nat.succ.inj hcount, hleaked⟩

end Executor

end Accelerator

end Offload
