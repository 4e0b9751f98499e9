import Offload.Accelerator.Executor

/-!
# Several executors

* `Fleet`      executors under the numbers they were given, counted from one;
* `Fleet.add`  a new executor.  One that cannot be made takes no number;
* `Fleet.act`  an operation on one of them; the others stay as they are.
-/

namespace Offload.Accelerator

structure Fleet where
  executors : Registry Executor
  nextId : Nat

namespace Fleet

variable {α : Type}

def empty : Fleet := ⟨.empty, 1⟩

def find? (f : Fleet) (id : Nat) : Option Executor := f.executors.find? id

/-- the number of the new executor, the fleet with it, and what was logged -/
def add (f : Fleet) (setup : Setup) : Except Error (Nat × Fleet × List Event) :=
  match Executor.start f.nextId setup with
  | .error err => .error err
  | .ok (x, events) => .ok (f.nextId, ⟨f.executors.insert f.nextId x, f.nextId + 1⟩, events)

/-- an operation on the executor of that number, if there is one -/
def act (f : Fleet) (id : Nat) (op : Executor → Reply α) : Option (Outcome α × Fleet × List Event) :=
  match f.find? id with
  | none => none
  | some x =>
    let reply := op x
    some (reply.result, { f with executors := f.executors.insert id reply.executor }, reply.events)

/-- lets an executor go -/
def drop (f : Fleet) (id : Nat) : Option (Fleet × List Event) :=
  match f.find? id with
  | none => none
  | some x => some ({ f with executors := f.executors.erase id }, x.drop)

end Fleet

end Offload.Accelerator
