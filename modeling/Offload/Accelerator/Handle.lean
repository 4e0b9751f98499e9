import Offload.Error
import Offload.Lane
import Offload.Size

/-!
# Handles

A handle names an allocation of an accelerator.  It is a plain value: it says what the allocation was
when it was made, and stays when the allocation is gone.

* `Handle`            a handle on elements of a type;
* `Handle.same`       whether two handles name the same allocation;
* `Source`, `Target`  the ends of a copy, on the host or on the device.
-/

namespace Offload.Accelerator

structure Handle (e : Element) where
  id : Nat
  length : Nat
  space : MemoryClass
  /-- the executor it came from -/
  owner : Nat
  deriving DecidableEq, Repr

namespace Handle

variable {e : Element}

def same (a b : Handle e) : Bool := a.id = b.id && a.owner = b.owner

def isEmpty (h : Handle e) : Bool := h.length = 0

/-- in bytes -/
def size (h : Handle e) : Except Crash Nat :=
  match Size.mul? h.length e.bytes with
  | some n => .ok n
  | none => .error (.overflow "multiply")

def display (h : Handle e) : String := s!"dev{h.id}@{h.owner}"

def describeSpace : MemoryClass → String
  | .hostVisible => "HostVisible"
  | .deviceExclusive => "DeviceExclusive"

def description (h : Handle e) : String :=
  "DeviceBuffer \x7b " ++
    s!"id: {h.id}, len: {h.length}, class: {describeSpace h.space}, owner: {h.owner}" ++ " \x7d"

end Handle

/-- where a copy reads -/
inductive Source (e : Element) where
  | host (xs : List (Lane e))
  | device (h : Handle e)

/-- where a copy writes -/
inductive Target (e : Element) where
  | host (xs : List (Lane e))
  | device (h : Handle e)

variable {e : Element}

def Source.length : Source e → Nat
  | host xs => xs.length
  | device h => h.length

def Target.length : Target e → Nat
  | host xs => xs.length
  | device h => h.length

end Offload.Accelerator
