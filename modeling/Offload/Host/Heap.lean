import Offload.Ambient
import Offload.Memory.Request
import Offload.Registry
import Offload.Trace.Event

/-!
# Host memory

Buffers of host memory come from managers.  A manager counts what it has given out; a buffer knows
its manager and its number there.

* `Buffer`           zeroed elements at an alignment;
* `Heap`             the managers, and every buffer that was not dropped yet;
* `Heap.allocate`    a new buffer of a manager, under that manager's next number;
* `Heap.drop`        the end of a buffer: its own manager counts it off;
* `Heap.deallocate`  gives a buffer back to a manager.  The wrong manager refuses, but the buffer is
                     dropped all the same;
* `copy`             from one slice to another.
-/

namespace Offload.Host

/-- what names a buffer -/
structure Ticket where
  owner : Nat
  id : Nat
  deriving DecidableEq, Repr

structure Buffer where
  ticket : Ticket
  element : Element
  length : Nat
  block : Block
  deriving DecidableEq, Repr

namespace Buffer

def size (b : Buffer) : Nat := b.block.size

/-- all elements -/
def contents (b : Buffer) : List (Lane b.element) := Memory.decode b.length b.block.bytes

/-- other elements in their place -/
def store (b : Buffer) (xs : List (Lane b.element)) : Buffer := { b with block := b.block.store xs }

end Buffer

/-- the counters of a manager -/
structure Manager where
  /-- buffers that were not dropped yet -/
  live : Nat
  /-- their bytes -/
  bytes : Nat
  /-- the number of the last buffer -/
  issued : Nat
  deriving DecidableEq, Repr

def Manager.fresh : Manager := ⟨0, 0, 0⟩

structure Heap where
  managers : Registry Manager
  nextManager : Nat
  buffers : List Buffer

/-- what an operation leaves behind -/
structure Heap.Reply (α : Type) where
  heap : Heap
  result : Except Error α
  events : List Event

namespace Heap

def empty : Heap := ⟨.empty, 1, []⟩

/-- the counters of a manager; all zero if there is none of that number -/
def manager (h : Heap) (id : Nat) : Manager := (h.managers.find? id).getD .fresh

def setManager (h : Heap) (id : Nat) (m : Manager) : Heap :=
  { h with managers := h.managers.insert id m }

/-- the number of a new manager -/
def addManager (h : Heap) : Nat × Heap :=
  (h.nextManager,
    { h with managers := h.managers.insert h.nextManager .fresh, nextManager := h.nextManager + 1 })

def find? (h : Heap) (t : Ticket) : Option Buffer := h.buffers.find? (·.ticket = t)

def allocate (h : Heap) (a : Ambient) (id : Nat) (e : Element) (count alignment : Nat) :
    Reply Buffer :=
  match Memory.Request.ofElements e count alignment with
  | .error err => ⟨h, .error err, []⟩
  | .ok r =>
    match Block.zeroed a.grants r.size r.alignment with
    | .error err => ⟨h, .error err, []⟩
    | .ok block =>
      let m := h.manager id
      let b : Buffer := ⟨⟨id, m.issued + 1⟩, e, count, block⟩
      let h' := h.setManager id ⟨m.live + 1, m.bytes + r.size, m.issued + 1⟩
      ⟨{ h' with buffers := h.buffers ++ [b] }, .ok b,
        Trace.measured a.settings (.allocation r.size r.alignment "host" a.work) ++
          [.hostBufferAllocated b.ticket.id count e r.size r.alignment]⟩

/-- Takes a live buffer out. -/
def release (h : Heap) (b : Buffer) : Heap :=
  let m := h.manager b.ticket.owner
  let h' := h.setManager b.ticket.owner { m with live := m.live - 1, bytes := m.bytes - b.size }
  { h' with buffers := h.buffers.filter (·.ticket ≠ b.ticket) }

def drop (h : Heap) (t : Ticket) : Option Heap := (h.find? t).map h.release

def deallocate (h : Heap) (id : Nat) (t : Ticket) : Option (Reply Unit) :=
  match h.find? t with
  | none => none
  | some b =>
    some <|
      if t.owner ≠ id then ⟨h.release b, .error (.foreignHandle t.id t.owner id), []⟩
      else ⟨h.release b, .ok (), [.hostBufferFreed t.id b.size]⟩

/-- other elements in a live buffer -/
def store (h : Heap) (b : Buffer) (xs : List (Lane b.element)) : Heap :=
  { h with buffers := h.buffers.map fun c => if c.ticket = b.ticket then b.store xs else c }

end Heap

/-- The destination afterwards, the result, and what was logged. -/
def copy {e : Element} (a : Ambient) (dst src : List (Lane e)) (count : Nat) :
    List (Lane e) × Except Error Unit × List Event :=
  let length := min dst.length src.length
  if length < count then (dst, .error (.bufferOutOfBounds count length), [])
  else
    (Slice.put dst 0 (src.take count), .ok (),
      Trace.measured a.settings (.transfer (count * e.bytes) "H2H" a.work))

end Offload.Host
