import Offload.Memory.Block

/-!
# Requests for memory

* `Request.ofElements`  the bytes and the alignment that so many elements need.  An alignment of zero
                        means that of the element type, and a smaller one is raised to it.
-/

namespace Offload.Memory

structure Request where
  size : Nat
  alignment : Nat
  deriving DecidableEq, Repr

/-- the alignment that an asked one stands for -/
def effectiveAlignment (e : Element) (alignment : Nat) : Nat :=
  if alignment = 0 then e.bytes else max alignment e.bytes

def Request.ofElements (e : Element) (count alignment : Nat) : Except Error Request :=
  if alignment ≠ 0 ∧ Size.isPower alignment = false then .error (.invalidAlignment alignment)
  else
    match Size.mul? count e.bytes with
    | none => .error (.allocationFailed Size.top "size overflow")
    | some size => .ok ⟨size, effectiveAlignment e alignment⟩

end Offload.Memory
