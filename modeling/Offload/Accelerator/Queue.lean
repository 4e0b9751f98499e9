import Offload.Accelerator.Memory
import Offload.Trace.Note

/-!
# The command queue

Commands run one after the other, each on the memory that the one before it left.

* `Queue.report`  what comes back of a command: a kernel's own refusal unchanged, every other failure
                  as a fault of the device under the command's label;
* `Queue.run`     runs a command to its end and keeps its label, if labels are kept;
* `Queue.close`   after that no command runs.

A queue is what comes of an `Exchange`, where callers and a worker of the queue's own take turns.  This holds
as long as what a crash leaves behind can be got rid of without another one, and of a crash as it is kept
here nothing is left behind but its text.
-/

namespace Offload.Accelerator

/-- what a command leaves behind -/
structure Done (α : Type) where
  memory : Memory
  outcome : Outcome α
  notes : List Trace.Note

/-- a command: it may change the memory, whatever comes of it -/
abbrev Job (α : Type) : Type := Memory → Done α

/-- a command that has nothing to say -/
def Job.plain {α : Type} (f : Memory → Outcome α × Memory) : Job α := fun m =>
  let (outcome, m) := f m
  ⟨m, outcome, []⟩

structure Queue where
  isOpen : Bool
  /-- the labels of the commands so far, if they are kept -/
  labels : Option (List String)
  deriving DecidableEq, Repr

namespace Queue

variable {α : Type}

def start (profiling : Bool) : Queue := ⟨true, if profiling then some [] else none⟩

/-- the labels of the commands so far -/
def profile (q : Queue) : List String := q.labels.getD []

def report (label : String) : Outcome α → Except Error α
  | .ok a => .ok a
  | .error (.error (.kernel name text)) => .error (.kernel name text)
  | .error (.error err) => .error (.deviceFault label err.message)
  | .error (.crash c) => .error (.deviceFault label (c.text?.getD "kernel panicked"))

def record (q : Queue) (label : String) : Queue :=
  { q with labels := q.labels.map (· ++ [label]) }

/-- what a queue and the memory behind it are like after a command, and what comes back of it -/
structure Answer (α : Type) where
  queue : Queue
  memory : Memory
  result : Except Error α
  notes : List Trace.Note

/-- A closed queue does not run the command. -/
def run (q : Queue) (m : Memory) (label : String) (job : Job α) : Answer α :=
  if q.isOpen then
    let done := job m
    ⟨q.record label, done.memory, report label done.outcome, done.notes⟩
  else ⟨q, m, .error (.deviceLost "command queue is shut down"), []⟩

def close (q : Queue) : Queue := { q with isOpen := false }

end Queue

end Offload.Accelerator
