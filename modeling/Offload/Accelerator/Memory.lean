import Offload.Memory.Block
import Offload.Registry

/-!
# Device memory

The memory of an emulated device: allocations of both classes under ascending numbers, with the
bytes of each class counted.

* `allocate`, `free`          the limit applies to device-exclusive bytes alone;
* `view`, `views`, `write`    the first elements of allocations, in their own type, where they are
                              found to be there (`fits`);
* `copyBetween`               from one allocation to another; onto itself it changes nothing;
* `take`, `restore`           an allocation out of the registry for a while; its bytes stay counted;
* `releaseAll`                the end of everything that is live.

An operation that is refused leaves the memory as it was.
-/

namespace Offload.Accelerator

structure Allocation where
  block : Block
  space : MemoryClass
  element : Element
  length : Nat
  deriving DecidableEq, Repr

namespace Allocation

/-- Only elements of the own type can be seen, and no more than there are. -/
def check (a : Allocation) (e : Element) (count : Nat) : Except Error Unit :=
  if e ≠ a.element then .error (.typeMismatch a.element.name e.name)
  else if a.length < count then .error (.bufferOutOfBounds count a.length)
  else .ok ()

/-- whether so many elements of a type can be seen -/
def fits (a : Allocation) (e : Element) (count : Nat) : Outcome Unit :=
  match a.check e count with
  | .error err => .error (.error err)
  | .ok () =>
    match a.block.check e count with
    | .error c => .error (.crash c)
    | .ok () => .ok ()

def view (a : Allocation) (e : Element) (count : Nat) : Outcome (List (Lane e)) :=
  match a.fits e count with
  | .error f => .error f
  | .ok () => .ok (Memory.decode count a.block.bytes)

def store {e : Element} (a : Allocation) (xs : List (Lane e)) : Allocation :=
  { a with block := a.block.store xs }

end Allocation

structure Memory where
  live : Registry Allocation
  nextId : Nat
  deviceBytes : Nat
  hostBytes : Nat
  /-- the most device-exclusive bytes -/
  limit : Option Nat

namespace Memory

def fresh (limit : Option Nat) : Memory := ⟨.empty, 1, 0, 0, limit⟩

/-- the bytes of a class -/
def bytesOf (m : Memory) : MemoryClass → Nat
  | .deviceExclusive => m.deviceBytes
  | .hostVisible => m.hostBytes

/-- the bytes of both classes -/
def bytes (m : Memory) : Nat := m.deviceBytes + m.hostBytes

def setBytes (m : Memory) (space : MemoryClass) (n : Nat) : Memory :=
  match space with
  | .deviceExclusive => { m with deviceBytes := n }
  | .hostVisible => { m with hostBytes := n }

def find (m : Memory) (id : Nat) : Except Error Allocation :=
  match m.live.find? id with
  | some a => .ok a
  | none => .error (.invalidHandle id)

/-- whether the limit leaves room -/
def checkRoom (m : Memory) (size : Nat) (space : MemoryClass) : Except Error Unit :=
  match space, m.limit with
  | .deviceExclusive, some limit =>
    let available := limit - m.deviceBytes
    if available < size then
      .error (.allocationFailed size
        s!"device memory limit reached ({available} of {limit} bytes free)")
    else .ok ()
  | _, _ => .ok ()

/-- the number of the new allocation, and the memory with it -/
def allocate (m : Memory) (grants : Allocator) (size alignment : Nat) (space : MemoryClass)
    (e : Element) (length : Nat) : Except Error (Nat × Memory) :=
  match m.checkRoom size space with
  | .error err => .error err
  | .ok () =>
    match Block.zeroed grants size alignment with
    | .error err => .error err
    | .ok block =>
      let m' := m.setBytes space (m.bytesOf space + size)
      .ok (m.nextId,
        { m' with live := m.live.insert m.nextId ⟨block, space, e, length⟩, nextId := m.nextId + 1 })

/-- The number of bytes given back.  The allocation must be of the given class. -/
def free (m : Memory) (id : Nat) (space : MemoryClass) : Outcome Nat × Memory :=
  match m.find id with
  | .error err => (.error (.error err), m)
  | .ok a =>
    if a.space ≠ space then (.error (.error (.wrongMemoryClass id space a.space)), m)
    else
      let m' := { m with live := m.live.erase id }
      if m.bytesOf a.space < a.block.size then (.error (.crash (.overflow "subtract")), m')
      else (.ok a.block.size, m'.setBytes a.space (m.bytesOf a.space - a.block.size))

def fits (m : Memory) (id : Nat) (e : Element) (count : Nat) : Outcome Unit :=
  match m.find id with
  | .error err => .error (.error err)
  | .ok a => a.fits e count

def view (m : Memory) (id : Nat) (e : Element) (count : Nat) : Outcome (List (Lane e)) :=
  match m.find id with
  | .error err => .error (.error err)
  | .ok a => a.view e count

/-- the same number of elements of several allocations -/
def views (m : Memory) (e : Element) (count : Nat) : List Nat → Outcome (List (List (Lane e)))
  | [] => .ok []
  | id :: ids =>
    match m.view id e count with
    | .error f => .error f
    | .ok xs =>
      match m.views e count ids with
      | .error f => .error f
      | .ok xss => .ok (xs :: xss)

def write {e : Element} (m : Memory) (id : Nat) (xs : List (Lane e)) : Outcome Unit × Memory :=
  match m.find id with
  | .error err => (.error (.error err), m)
  | .ok a =>
    match a.fits e xs.length with
    | .error f => (.error f, m)
    | .ok () => (.ok (), { m with live := m.live.insert id (a.store xs) })

def take (m : Memory) (id : Nat) : Except Error (Allocation × Memory) :=
  match m.find id with
  | .error err => .error err
  | .ok a => .ok (a, { m with live := m.live.erase id })

def restore (m : Memory) (id : Nat) (a : Allocation) : Memory :=
  { m with live := m.live.insert id a }

/-- The destination is taken out while it is written, so that the source can be looked at.  After a
crash it stays out. -/
def copyBetween (m : Memory) (e : Element) (dst src count : Nat) : Outcome Unit × Memory :=
  if dst = src then
    match m.fits src e count with
    | .error f => (.error f, m)
    | .ok () => (.ok (), m)
  else
    match m.take dst with
    | .error err => (.error (.error err), m)
    | .ok (target, rest) =>
      match rest.view src e count with
      | .error (.crash c) => (.error (.crash c), rest)
      | .error (.error err) => (.error (.error err), rest.restore dst target)
      | .ok xs =>
        match target.fits e count with
        | .error (.crash c) => (.error (.crash c), rest)
        | .error (.error err) => (.error (.error err), rest.restore dst target)
        | .ok () => (.ok (), rest.restore dst (target.store xs))

def contains (m : Memory) (id : Nat) : Bool := m.live.contains id

/-- the number of live allocations -/
def count (m : Memory) : Nat := m.live.size

/-- how many allocations and bytes were live, and the memory without them -/
def releaseAll (m : Memory) : Nat × Nat × Memory :=
  (m.count, m.bytes, { m with live := .empty, deviceBytes := 0, hostBytes := 0 })

end Memory

end Offload.Accelerator
