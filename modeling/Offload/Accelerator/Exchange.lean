import Offload.Accelerator.Queue

/-!
# Behind the command queue

A queue runs its commands on a worker of its own.  Whoever has a command sends it to the worker, over one
channel for all of them, and waits for the response on a channel made for this command alone; any number
of callers can do so at a time.

* `Payload`        what a panic leaves behind for whoever catches it;
* `Command`        a command as it is handed in: it may change the memory and then return or panic;
* `boundary`       what comes back of it, where its panic is caught;
* `Exchange`       the two sides and the channels between them;
* `Exchange.step?` what either side can do next.

Messages are taken in the order in which they were sent.  The worker runs one command, keeps its label and
only then answers.  Closing sends a last message behind all others and waits for the worker to come to it.

A payload is got rid of behind the boundary.  Where that panics as well, nothing catches it and the worker
dies: with the command's own channel, then with the channel of the messages and all that is still in it.
-/

namespace Offload.Accelerator

/-- what a panic leaves behind for whoever catches it -/
inductive Payload where
  | borrowed (text : String)
  | owned (text : String)
  /-- without a text; to get rid of it may panic too -/
  | other (bursts : Bool)
  deriving DecidableEq, Repr

namespace Payload

def message : Payload → String
  | borrowed text | owned text => text
  | other _ => "kernel panicked"

/-- whether getting rid of it panics -/
def bursts : Payload → Bool
  | borrowed _ | owned _ => false
  | other bursts => bursts

end Payload

/-- how a command ends -/
inductive Ending (α : Type) where
  | returned (r : Except Error α)
  | panicked (p : Payload)

/-- what a command leaves behind -/
structure Ended (α : Type) where
  memory : Memory
  ending : Ending α
  notes : List Trace.Note

/-- a command under its label -/
structure Command : Type 1 where
  label : String
  /-- what it answers -/
  Value : Type
  work : Memory → Ended Value

/-- what comes back of a command -/
structure Receipt : Type 1 where
  Value : Type
  result : Except Error Value

/-- what comes back where the worker cannot be reached -/
def Command.lost (c : Command) (reason : String) : Receipt := ⟨c.Value, .error (.deviceLost reason)⟩

/-- What comes back of a command that ended so; nothing where getting rid of its payload panics.  Its
message is read first. -/
def boundary {α : Type} (label : String) : Ending α → Option (Except Error α)
  | .returned (.ok a) => some (.ok a)
  | .returned (.error (.kernel name text)) => some (.error (.kernel name text))
  | .returned (.error err) => some (.error (.deviceFault label err.message))
  | .panicked p => if p.bursts then none else some (.error (.deviceFault label p.message))

namespace Exchange

/-- the channel on which one command is answered -/
inductive Response : Type 1 where
  | awaited
  | sent (r : Receipt)
  /-- The worker's end is gone and nothing was sent. -/
  | hungUp
  /-- The caller has it. -/
  | taken (r : Receipt)

namespace Response

/-- There may be nobody left to send it to. -/
def send (r : Receipt) : Response → Response
  | awaited => sent r
  | response => response

def hangUp : Response → Response
  | awaited => hungUp
  | response => response

end Response

/-- a command that was handed in -/
structure Slip : Type 1 where
  command : Command
  response : Response

def Slip.respond (f : Response → Response) (s : Slip) : Slip := { s with response := f s.response }

/-- what its caller gets, if there is something to be had -/
def Slip.collect? (s : Slip) : Option Slip :=
  match s.response with
  | .sent r => some { s with response := .taken r }
  | .hungUp =>
    some { s with response := .taken (s.command.lost s!"no completion for '{s.command.label}'") }
  | .awaited | .taken _ => none

/-- A command goes with the number of its slip. -/
inductive Message : Type 1 where
  | run (c : Command) (slip : Nat)
  | shutdown

/-- A message that is thrown away takes the worker's end of the command's own channel with it. -/
def Message.drop (slips : List Slip) : Message → List Slip
  | run _ slip => slips.modify slip (.respond .hangUp)
  | shutdown => slips

inductive Worker : Type 1 where
  /-- about to take the next message -/
  | ready
  | running (c : Command) (slip : Nat)
  /-- The command has ended, and it is settled what comes back. -/
  | ended (c : Command) (slip : Nat) (r : Receipt)
  /-- Its label is kept. -/
  | recorded (c : Command) (slip : Nat) (r : Receipt)
  | unwinding
  | exited
  | dead

/-- Without its end of the channel nothing can be sent any more. -/
def Worker.gone : Worker → Bool
  | exited | dead => true
  | _ => false

end Exchange

structure Exchange : Type 1 where
  /-- whether there is still an end to send from -/
  sender : Bool
  /-- whether the worker is still to be waited for -/
  handle : Bool
  /-- whether it is being waited for -/
  joining : Bool
  /-- the oldest message first -/
  channel : List Exchange.Message
  worker : Exchange.Worker
  /-- all commands that were ever handed in, in order -/
  slips : List Exchange.Slip
  memory : Memory
  /-- the labels of the commands so far, if they are kept -/
  labels : Option (List String)
  notes : List Trace.Note

namespace Exchange

def start (profiling : Bool) (m : Memory) : Exchange where
  sender := true
  handle := true
  joining := false
  channel := []
  worker := .ready
  slips := []
  memory := m
  labels := if profiling then some [] else none
  notes := []

/-! ## callers -/

def refuse (x : Exchange) (c : Command) (reason : String) : Exchange :=
  { x with slips := x.slips ++ [⟨c, .taken (c.lost reason)⟩] }

/-- hands a command in and sends it -/
def submit (x : Exchange) (c : Command) : Exchange :=
  if !x.sender then x.refuse c "command queue is shut down"
  else if x.worker.gone then x.refuse c "command queue worker has exited"
  else
    { x with
      slips := x.slips ++ [⟨c, .awaited⟩]
      channel := x.channel ++ [.run c x.slips.length] }

def collect? (x : Exchange) (slip : Nat) : Option Exchange :=
  match x.slips[slip]? with
  | some s => s.collect?.map fun s => { x with slips := x.slips.set slip s }
  | none => none

/-- Nothing is sent where the sender is gone already. -/
def close (x : Exchange) : Exchange :=
  { x with
    sender := false
    handle := false
    joining := x.joining || x.handle
    channel := if x.sender && !x.worker.gone then x.channel ++ [.shutdown] else x.channel }

/-- the end of closing -/
def join? (x : Exchange) : Option Exchange :=
  if !x.joining then none
  else
    match x.worker with
    | .exited => some { x with joining := false }
    | .dead =>
      some { x with joining := false, notes := x.notes ++ [⟨"queue_worker_panicked", .error, []⟩] }
    | _ => none

/-! ## the worker -/

/-- With the worker's end of the channel goes what is still in it. -/
def leave (x : Exchange) (w : Worker) : Exchange :=
  { x with worker := w, channel := [], slips := x.channel.foldl Message.drop x.slips }

def exit (x : Exchange) : Exchange :=
  { x.leave .exited with notes := x.notes ++ [⟨"queue_worker_exited", .trace, []⟩] }

/-- runs a command up to the boundary -/
def execute (x : Exchange) (c : Command) (slip : Nat) : Exchange :=
  let ended := c.work x.memory
  let x := { x with memory := ended.memory, notes := x.notes ++ ended.notes }
  match boundary c.label ended.ending with
  | some r => { x with worker := .ended c slip ⟨c.Value, r⟩ }
  | none => { x with worker := .unwinding, slips := x.slips.modify slip (.respond .hangUp) }

/-- An empty channel is waited at, as long as something can still be sent. -/
def work? (x : Exchange) : Option Exchange :=
  match x.worker with
  | .ready =>
    match x.channel with
    | .run c slip :: rest => some { x with worker := .running c slip, channel := rest }
    | .shutdown :: rest => some (exit { x with channel := rest })
    | [] => if x.sender then none else some x.exit
  | .running c slip => some (x.execute c slip)
  | .ended c slip r =>
    some { x with worker := .recorded c slip r, labels := x.labels.map (· ++ [c.label]) }
  | .recorded _ slip r =>
    some { x with worker := .ready, slips := x.slips.modify slip (.respond (.send r)) }
  | .unwinding => some (x.leave .dead)
  | .exited | .dead => none

/-! ## steps -/

inductive Act : Type 1 where
  | submit (c : Command)
  /-- A caller gets its response. -/
  | collect (slip : Nat)
  | close
  | join
  | work

/-- `none` where there is nothing to be done, or not yet -/
def step? (x : Exchange) : Act → Option Exchange
  | .submit c => some (x.submit c)
  | .collect slip => x.collect? slip
  | .close => some x.close
  | .join => x.join?
  | .work => x.work?

def run? (x : Exchange) : List Act → Option Exchange
  | [] => some x
  | a :: as => (x.step? a).bind (·.run? as)

end Exchange

end Offload.Accelerator
