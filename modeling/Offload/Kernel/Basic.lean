import Offload.Lane
import Offload.Style
import Offload.Trace.Note

/-!
# Kernels

A kernel computes an output slice from input slices.  It is written once and runs wherever the data
is.

* `Kernel`      any function of a style, the output slice, the input slices and a number of elements;
* `Kernel.Run`  what it leaves behind: the output slice as it was last written, whether it finished,
                refused its operands or crashed, and what it has to say.

A kernel can write to its output but cannot change its length.
-/

namespace Offload

/-- what a kernel leaves behind -/
structure Kernel.Run (e : Element) where
  output : List (Lane e)
  outcome : Outcome Unit
  notes : List Trace.Note

structure Kernel where
  name : String
  input : Element
  output : Element
  apply : Style → List (Lane output) → List (List (Lane input)) → Nat → Kernel.Run output
  length_apply : ∀ s out ins n, (apply s out ins n).output.length = out.length

/-- A style must be for the kernel's inputs, and every slice must hold that many elements; the output
is looked at first. -/
def Kernel.check (k : Kernel) (s : Style) (output : Nat) (inputs : List Nat) (count : Nat) :
    Except Error Unit :=
  if s.element ≠ k.input then .error (.typeMismatch k.input.name s.element.name)
  else
    match (output :: inputs).find? (· < count) with
    | some len => .error (.bufferOutOfBounds count len)
    | none => .ok ()

end Offload
