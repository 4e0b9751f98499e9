import Offload.Kernel.Basic
import Offload.Kernel.Chunk
import Offload.Slice.Part

/-!
# Loops over lanes

What the kernels have in common that compute every element of their output from the elements at the same
place in their inputs.

* `fill`         the loop of a register or of a tail: an element is computed and written before the next
                 one is;
* `Run.walked`   what is left behind after a walk over the chunks;
* `Run.refused`  the answer to too many or too few inputs.

Each kernel has its own loop over the chunks.
-/

namespace Offload.Kernel

variable {o : Element} {n : Nat}

/-- `left` places of a part from a place on -/
def fill (p : Part n) (compute : Nat → Except Crash (Lane o)) :
    Nat → Nat → Vector (Lane o) n → Vector (Lane o) n × Option Crash
  | 0, _, out => (out, none)
  | left + 1, i, out =>
    match compute i with
    | .error c => (out, some c)
    | .ok y =>
      if h : i < p.length then
        fill p compute left (i + 1) (out.set (p.start + i) y (Part.add_lt h))
      else (out, some (.index i p.length))

/-- What was written before a crash stays; the notes are left only without one. -/
def Run.walked (out : Vector (Lane o) n) (crash : Option Crash) (notes : List Trace.Note) : Run o :=
  match crash with
  | none => ⟨out.toList, .ok (), notes⟩
  | some c => ⟨out.toList, .error (.crash c), []⟩

/-- what a number of inputs is called in messages -/
def inputWords (n : Nat) : String := if n = 1 then s!"{n} input" else s!"{n} inputs"

/-- A kernel that takes `arity` inputs leaves its output alone if it is given another number. -/
def Run.refused (name : String) (arity inputs : Nat) (output : List (Lane o)) : Run o :=
  ⟨output, .error (.error (.kernel name s!"expected {inputWords arity}, got {inputs}")), []⟩

theorem Run.length_walked (out : Vector (Lane o) n) (crash : Option Crash) (notes : List Trace.Note) :
    (walked out crash notes).output.length = n := by
  cases crash <;> exact Vector.length_toList

end Offload.Kernel
