import Offload.Extension.Table
import Offload.Host.Heap
import Offload.Kernel.Basic

/-!
# The host executor

An executor runs kernels on the calling thread, with the vector extensions of a table and buffers of
a manager of its own.

* `Executor.checkStyle`  a scalar style is always right; a vector style must be the one that the table
                         has for its width;
* `Executor.submit`      runs a kernel with a given style; `submitLanes` and `submitWidest` take the
                         style from the table;
* `Submission`           the output slice afterwards, what came of it, and what was logged.
-/

namespace Offload.Host

structure Executor where
  table : Table
  manager : Nat

/-- what a submission leaves behind -/
structure Submission (e : Element) where
  output : List (Lane e)
  outcome : Outcome Unit
  events : List Event

namespace Executor

/-- what executors of this kind are called in records -/
def backend : String := "cpu"

/-- a new executor with a new manager -/
def start (table : Table) (h : Heap) : Executor × Heap × List Event :=
  let (manager, h) := h.addManager
  (⟨table, manager⟩, h, [.hostExecutorCreated table.names])

/-- what is logged when an executor goes away -/
def drop (x : Executor) (h : Heap) : List Event := [.hostExecutorDropped (h.manager x.manager).live]

def checkStyle (x : Executor) (s : Style) : Except Error Unit :=
  if s.isScalar then .ok ()
  else
    match x.table.resolveWidth s.element s.width with
    | .error _ => .error (.unsupportedVectorLength s.element s.width)
    | .ok r => if r.tag = s.tag then .ok () else .error (.unsupportedVectorLength s.element s.width)

/-- what a submission checks before the kernel runs -/
def check (x : Executor) (k : Kernel) (s : Style) (output : Nat) (inputs : List Nat) (count : Nat) :
    Except Error Unit :=
  match x.checkStyle s with
  | .error err => .error err
  | .ok () => k.check s output inputs count

/-- The span around the kernel ends last, whatever comes of it. -/
def submit (x : Executor) (a : Ambient) (k : Kernel) (s : Style) (output : List (Lane k.output))
    (inputs : List (List (Lane k.input))) (count : Nat) : Submission k.output :=
  match x.check k s output.length (inputs.map (·.length)) count with
  | .error err => ⟨output, .error (.error err), []⟩
  | .ok () =>
    if count = 0 then ⟨output, .ok (), []⟩
    else
      let span := Trace.Span.configured a.settings s!"{backend}_submit:{k.name}"
      let run := k.apply s output inputs count
      let record := match run.outcome with
        | .ok () => Trace.measured a.settings (.submission k.name backend count a.work)
        | .error _ => []
      ⟨run.output, run.outcome,
        run.notes.map Event.remark ++ record ++ Trace.ended a.settings span a.span⟩

/-- with exactly that many lanes -/
def submitLanes (x : Executor) (a : Ambient) (k : Kernel) (lanes : Nat)
    (output : List (Lane k.output)) (inputs : List (List (Lane k.input))) (count : Nat) :
    Submission k.output :=
  match x.table.resolve k.input lanes with
  | .error err => ⟨output, .error (.error err), []⟩
  | .ok s => x.submit a k s output inputs count

/-- with the widest style there is -/
def submitWidest (x : Executor) (a : Ambient) (k : Kernel) (output : List (Lane k.output))
    (inputs : List (List (Lane k.input))) (count : Nat) : Submission k.output :=
  x.submit a k (x.table.widest k.input) output inputs count

end Executor

end Offload.Host
