import Offload.Kernel.Basic

/-!
# Elementwise kernels

An elementwise kernel takes its first input element by element, and may give up at any of them.

* `elementwiseLoop`     the loop: an element is read, worked on and written before the next is read;
* `Kernel.elementwise`  the kernel.  What was written before it gave up stays.  The first input is
                        looked for when an element of it is read, so no elements need no input.
-/

namespace Offload.Kernel

variable {i o : Element}

/-- `left` elements from a place on; input and output are what lies there and behind -/
def elementwiseLoop (f : Nat → Lane i → Except Crash (Lane o)) :
    Nat → Nat → List (Lane i) → List (Lane o) → List (Lane o) × Option Crash
  | 0, _, _, output => (output, none)
  | _ + 1, place, [], output => (output, some (.index place place))
  | left + 1, place, x :: input, output =>
    match f place x with
    | .error c => (output, some c)
    | .ok y =>
      match output with
      | [] => ([], some (.index place place))
      | _ :: output =>
        let (ys, crash) := elementwiseLoop f left (place + 1) input output
        (y :: ys, crash)

theorem length_elementwiseLoop (f : Nat → Lane i → Except Crash (Lane o)) (left place : Nat)
    (input : List (Lane i)) (output : List (Lane o)) :
    (elementwiseLoop f left place input output).1.length = output.length := by
  induction left generalizing place input output with
  | zero => rfl
  | succ left ih =>
    cases input with
    | nil => rfl
    | cons x input =>
      rw [elementwiseLoop]
      split
      · rfl
      · cases output with
        | nil => rfl
        | cons z output => exact congrArg (· + 1) (ih ..)

/-- `f` is given the style, the place and the element there. -/
def elementwise (name : String) (i o : Element)
    (f : Style → Nat → Lane i → Except Crash (Lane o)) : Kernel where
  name := name
  input := i
  output := o
  apply s output inputs count :=
    match elementwiseLoop (f s) count 0 (inputs.headD []) output with
    | (output, none) => ⟨output, .ok (), []⟩
    | (output, some c) => ⟨output, .error (.crash c), []⟩
  length_apply := by
    intro s output inputs count
    have h := length_elementwiseLoop (f s) count 0 (inputs.headD []) output
    split
    · rename_i heq
      rw [← h, heq]
    · rename_i heq
      rw [← h, heq]

end Offload.Kernel
