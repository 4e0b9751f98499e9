import Offload.Accelerator.Exchange
import Offload.Proofs.Accelerator.Step

/-!
# The discipline of a queue

A command may change the memory and then return or panic.  Here commands are run one after the other, each
to its end.

* `Command.job`      a command as a queue runs it; what comes back at its `boundary` is what the queue
                     reports, unless the payload of its panic bursts (`boundary_eq`);
* `Command.ofJob`    the other way round, every job of a queue is the job of a command that never bursts;
* `Owes`             what has to come back of a command, by its ending; this is just what is reported
                     (`owes_iff`);
* `Command.through`  the memory after some commands, each on what the one before it left;
* `Queue.serve`      orders one after the other, with all that comes back of them.  Until it is closed a queue
                     runs every command once, whatever became of those before it (`serve_of_open`); after
                     that it runs none, however often it is closed again (`serve_of_closed`).
-/

namespace Offload.Accelerator

variable {α : Type}

/-! ## commands as jobs -/

def Payload.crash : Payload → Crash
  | borrowed text | owned text => .said text
  | other _ => .wordless

namespace Ending

def outcome : Ending α → Outcome α
  | returned r => .ofExcept r
  | panicked p => .error (.crash p.crash)

/-- whether what it leaves behind panics again when it is got rid of -/
def bursts : Ending α → Bool
  | returned _ => false
  | panicked p => p.bursts

end Ending

namespace Command

def job (c : Command) : Job c.Value := fun m =>
  let ended := c.work m
  ⟨ended.memory, ended.ending.outcome, ended.notes⟩

/-- The command panics on this memory, and so does getting rid of what it leaves behind. -/
def BurstsOn (c : Command) (m : Memory) : Prop := (c.work m).ending.bursts = true

/-- What it leaves behind can be got rid of, as it should be of any value. -/
def Quiet (c : Command) : Prop := ∀ m, ¬ c.BurstsOn m

end Command

/-- What comes back at the boundary is what a queue reports. -/
theorem boundary_eq (label : String) (e : Ending α) :
    boundary label e = if e.bursts then none else some (Queue.report label e.outcome) := by
  cases e with
  | returned r =>
    cases r with
    | ok a => rfl
    | error err => cases err <;> rfl
  | panicked p =>
    cases p with
    | borrowed text => rfl
    | owned text => rfl
    | other bursts => rfl

/-- the payload that leaves a queue as well informed as the crash does -/
def Payload.of (c : Crash) : Payload :=
  match c.text? with
  | some text => .owned text
  | none => .other false

/-- how a command ends that runs a job -/
def Ending.of : Outcome α → Ending α
  | .ok a => returned (.ok a)
  | .error (.error err) => returned (.error err)
  | .error (.crash c) => panicked (.of c)

def Command.ofJob (label : String) (job : Job α) : Command where
  label := label
  Value := α
  work m :=
    let done := job m
    ⟨done.memory, .of done.outcome, done.notes⟩

theorem Ending.bursts_of (o : Outcome α) : (Ending.of o).bursts = false := by
  cases o with
  | ok a => rfl
  | error f =>
    cases f with
    | error err => rfl
    | crash c =>
      show (Payload.of c).bursts = false
      unfold Payload.of
      split <;> rfl

theorem Command.quiet_ofJob (label : String) (job : Job α) : (Command.ofJob label job).Quiet := fun m =>
  Bool.eq_false_iff.mp (Ending.bursts_of (job m).outcome)

theorem Queue.report_of (label : String) (o : Outcome α) :
    report label (Ending.of o).outcome = report label o := by
  cases o with
  | ok a => rfl
  | error f =>
    cases f with
    | error err => cases err <;> rfl
    | crash c => cases c <;> rfl

/-- Any job of a queue is the job of a command that never bursts. -/
theorem Queue.run_ofJob (q : Queue) (m : Memory) (label : String) (job : Job α) :
    q.run m label (Command.ofJob label job).job = q.run m label job := by
  unfold run
  split
  · exact congrArg (Answer.mk _ _ · _) (report_of label (job m).outcome)
  · rfl

/-! ## what has to come back -/

/-- what has to come back of a command under a label, by its ending -/
structure Owes (label : String) (e : Ending α) (r : Except Error α) : Prop where
  value : ∀ v, e = .returned (.ok v) → r = .ok v
  refusal : ∀ name text, e = .returned (.error (.kernel name text)) → r = .error (.kernel name text)
  fault : ∀ err, e = .returned (.error err) → err.kind ≠ .kernel →
    r = .error (.deviceFault label err.message)
  borrowed : ∀ text, e = .panicked (.borrowed text) → r = .error (.deviceFault label text)
  owned : ∀ text, e = .panicked (.owned text) → r = .error (.deviceFault label text)
  other : ∀ bursts, e = .panicked (.other bursts) → r = .error (.deviceFault label "kernel panicked")

theorem owes_report (label : String) (e : Ending α) : Owes label e (Queue.report label e.outcome) where
  value v h := by rw [h]; rfl
  refusal name text h := by rw [h]; rfl
  fault err h hk := by
    rw [h]
    exact Queue.report_of_error hk
  borrowed text h := by rw [h]; rfl
  owned text h := by rw [h]; rfl
  other bursts h := by rw [h]; rfl

/-- Nothing is left open. -/
theorem owes_iff {label : String} {e : Ending α} {r : Except Error α} :
    Owes label e r ↔ r = Queue.report label e.outcome := by
  constructor
  · intro h
    cases e with
    | returned r =>
      cases r with
      | ok v => exact h.value v rfl
      | error err =>
        by_cases hk : err.kind = .kernel
        · obtain ⟨name, text, rfl⟩ := Error.eq_kernel_of_kind hk
          exact h.refusal name text rfl
        · exact (h.fault err rfl hk).trans (Queue.report_of_error hk).symm
    | panicked p =>
      cases p with
      | borrowed text => exact h.borrowed text rfl
      | owned text => exact h.owned text rfl
      | other bursts => exact h.other bursts rfl
  · rintro rfl
    exact owes_report label e

/-! ## commands in their order -/

namespace Command

/-- the memory after commands in their order, each on what the one before it left -/
def through (m : Memory) (cs : List Command) : Memory := cs.foldl (fun m c => (c.work m).memory) m

/-- what comes back of a command that is run on some memory -/
def receipt (c : Command) (m : Memory) : Receipt :=
  ⟨c.Value, Queue.report c.label (c.work m).ending.outcome⟩

/-- what comes back from a queue that is closed -/
def late (c : Command) : Receipt := c.lost "command queue is shut down"

/-- what comes back of commands, each run on what the one before it left -/
def receipts (m : Memory) : List Command → List Receipt
  | [] => []
  | c :: cs => c.receipt m :: receipts (c.work m).memory cs

/-- what is heard of them -/
def heard (m : Memory) : List Command → List Trace.Note
  | [] => []
  | c :: cs => (c.work m).notes ++ heard (c.work m).memory cs

variable (m : Memory) (cs : List Command) (c : Command)

theorem through_concat : through m (cs ++ [c]) = (c.work (through m cs)).memory := List.foldl_append

theorem receipts_concat : receipts m (cs ++ [c]) = receipts m cs ++ [c.receipt (through m cs)] := by
  induction cs generalizing m with
  | nil => rfl
  | cons b cs ih => exact congrArg (b.receipt m :: ·) (ih (b.work m).memory)

theorem heard_concat : heard m (cs ++ [c]) = heard m cs ++ (c.work (through m cs)).notes := by
  induction cs generalizing m with
  | nil => exact List.append_nil _
  | cons b cs ih =>
    show (b.work m).notes ++ heard (b.work m).memory (cs ++ [c]) = _
    rw [ih, ← List.append_assoc]
    rfl

theorem length_receipts : (receipts m cs).length = cs.length := by
  induction cs generalizing m with
  | nil => rfl
  | cons c cs ih => exact congrArg (· + 1) (ih (c.work m).memory)

/-- The receipt of a command is told by the memory that those before it left. -/
theorem getElem?_receipts (later : List Command) :
    (receipts m (cs ++ c :: later))[cs.length]? = some (c.receipt (through m cs)) := by
  induction cs generalizing m with
  | nil => rfl
  | cons b cs ih => exact ih (b.work m).memory

end Command

/-! ## orders one after the other -/

/-- what a queue can be given -/
inductive Order : Type 1 where
  | command (c : Command)
  | close

namespace Order

/-- the commands among orders -/
def command? : Order → Option Command
  | command c => some c
  | close => none

def closes : Order → Bool
  | command _ => false
  | close => true

/-- the commands before the queue is closed -/
def accepted : List Order → List Command
  | command c :: os => c :: accepted os
  | close :: _ | [] => []

/-- the commands after that -/
def late : List Order → List Command
  | command _ :: os => late os
  | close :: os => os.filterMap command?
  | [] => []

theorem filterMap_command? (os : List Order) : os.filterMap command? = accepted os ++ late os := by
  induction os with
  | nil => rfl
  | cons o os ih =>
    cases o with
    | command c => exact congrArg (c :: ·) ih
    | close => rfl

theorem late_of_open {os : List Order} (h : os.any closes = false) : late os = [] := by
  induction os with
  | nil => rfl
  | cons o os ih =>
    cases o with
    | command c => exact ih h
    | close => nomatch h

theorem accepted_commands (cs : List Command) (os : List Order) :
    accepted (cs.map command ++ os) = cs ++ accepted os := by
  induction cs with
  | nil => rfl
  | cons c cs ih => exact congrArg (c :: ·) ih

section
variable (cs : List Command)

theorem accepted_map : accepted (cs.map command) = cs := by
  have h := accepted_commands cs []
  rwa [List.append_nil, accepted, List.append_nil] at h

end

theorem accepted_concat_command (os : List Order) (c : Command) :
    accepted (os ++ [command c]) = if os.any closes then accepted os else accepted os ++ [c] := by
  induction os with
  | nil => rfl
  | cons o os ih =>
    cases o with
    | command b =>
      show b :: accepted (os ++ [command c]) =
        if os.any closes then b :: accepted os else b :: (accepted os ++ [c])
      rw [ih]
      split <;> rfl
    | close => rfl

theorem accepted_concat_close (os : List Order) : accepted (os ++ [close]) = accepted os := by
  induction os with
  | nil => rfl
  | cons o os ih =>
    cases o with
    | command b => exact congrArg (b :: ·) ih
    | close => rfl

end Order

namespace Queue

variable {q : Queue}

/-- what a worker leaves behind that came to its end -/
def exited : Trace.Note := ⟨"queue_worker_exited", .trace, []⟩

/-- what is heard of a queue that is closed -/
def farewell (q : Queue) : List Trace.Note := if q.isOpen then [exited] else []

/-- what orders leave behind -/
structure Served : Type 1 where
  queue : Queue
  memory : Memory
  /-- one for each command, in order -/
  receipts : List Receipt
  notes : List Trace.Note

def serve (q : Queue) (m : Memory) : List Order → Served
  | [] => ⟨q, m, [], []⟩
  | .close :: os =>
    let rest := q.close.serve m os
    { rest with notes := q.farewell ++ rest.notes }
  | .command c :: os =>
    let answer := q.run m c.label c.job
    let rest := answer.queue.serve answer.memory os
    { rest with receipts := ⟨c.Value, answer.result⟩ :: rest.receipts, notes := answer.notes ++ rest.notes }

/-- what jobs leave behind that are run one after the other -/
def runs (q : Queue) (m : Memory) : List (String × Job α) → Served
  | [] => ⟨q, m, [], []⟩
  | (label, job) :: jobs =>
    let answer := q.run m label job
    let rest := answer.queue.runs answer.memory jobs
    { rest with receipts := ⟨α, answer.result⟩ :: rest.receipts, notes := answer.notes ++ rest.notes }

theorem serve_ofJob (q : Queue) (m : Memory) (jobs : List (String × Job α)) :
    q.serve m (jobs.map fun j => .command (.ofJob j.1 j.2)) = q.runs m jobs := by
  induction jobs generalizing q m with
  | nil => rfl
  | cons j jobs ih =>
    obtain ⟨label, job⟩ := j
    have hrun : q.run m (Command.ofJob label job).label (Command.ofJob label job).job = q.run m label job :=
      run_ofJob q m label job
    rw [List.map_cons, serve, hrun, ih]
    rfl

/-- An open queue runs the command on the memory as it is, and stays open whatever becomes of it. -/
theorem run_of_open (h : q.isOpen = true) (m : Memory) (label : String) (job : Job α) :
    q.run m label job =
      ⟨q.record label, (job m).memory, report label (job m).outcome, (job m).notes⟩ := if_pos h

theorem run_of_closed (h : q.isOpen = false) (m : Memory) (label : String) (job : Job α) :
    q.run m label job = ⟨q, m, .error (.deviceLost "command queue is shut down"), []⟩ :=
  if_neg (Bool.eq_false_iff.mp h)

theorem close_of_closed (h : q.isOpen = false) : q.close = q := by
  obtain ⟨isOpen, labels⟩ := q
  cases h
  rfl

/-- A closed queue runs nothing, and to close it again changes nothing. -/
theorem serve_of_closed (h : q.isOpen = false) (m : Memory) (os : List Order) :
    q.serve m os = ⟨q, m, (os.filterMap Order.command?).map Command.late, []⟩ := by
  induction os with
  | nil => rfl
  | cons o os ih =>
    cases o with
    | close =>
      have hfarewell : q.farewell = [] := if_neg (Bool.eq_false_iff.mp h)
      rw [serve, close_of_closed h, ih, hfarewell]
      rfl
    | command c => rw [serve, run_of_closed h, ih]; rfl

/-- Until it is closed an open queue runs every command once, in order, whatever became of those before it. -/
theorem serve_of_open (h : q.isOpen = true) (m : Memory) (os : List Order) :
    q.serve m os =
      ⟨⟨!os.any Order.closes, q.labels.map (· ++ (Order.accepted os).map (·.label))⟩,
        Command.through m (Order.accepted os),
        Command.receipts m (Order.accepted os) ++ (Order.late os).map Command.late,
        Command.heard m (Order.accepted os) ++ bif os.any Order.closes then [exited] else []⟩ := by
  induction os generalizing q m with
  | nil =>
    obtain ⟨isOpen, labels⟩ := q
    cases h
    show Served.mk ⟨true, labels⟩ m [] [] = ⟨⟨true, labels.map (· ++ [])⟩, m, [], []⟩
    simp only [List.append_nil, Option.map_id']
  | cons o os ih =>
    cases o with
    | close =>
      rw [serve, serve_of_closed (show q.close.isOpen = false from rfl), farewell, if_pos h]
      show Served.mk q.close m _ [exited] = ⟨⟨false, q.labels.map (· ++ [])⟩, m, _, [exited]⟩
      simp only [List.append_nil, Option.map_id']
      rfl
    | command c =>
      rw [serve, run_of_open h, ih (show (q.record c.label).isOpen = true from h)]
      simp only [record, Option.map_map, Function.comp_def, List.append_assoc]
      exact congrArg (Served.mk _ _ _) (List.append_assoc ..).symm

end Queue

end Offload.Accelerator
