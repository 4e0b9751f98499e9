import Offload.Kernel.Lanewise

/-!
# Adding two vectors

* `sumAt`         the sum at one place of two parts: the first input is read before the second;
* `sumChunk`      one chunk.  The parts of a register are looked for before anything is written, that of
                  the output first; the tail goes over the slices themselves;
* `Kernel.sumBy`  the sum of two inputs, for any way to add two lanes;
* `Kernel.sum`    with the addition of the element type: integers wrap, floating point rounds.
-/

namespace Offload.Kernel

variable {e : Element} {n k l : Nat} (add : Lane e → Lane e → Lane e) (as : Vector (Lane e) k)
  (bs : Vector (Lane e) l)

def sumAt (a : Part k) (b : Part l) (i : Nat) : Except Crash (Lane e) := do
  let x ← a.get as i
  let y ← b.get bs i
  return add x y

/-- the parts of the output and of both inputs -/
def sumParts (n k l start stop : Nat) : Except Crash (Part n × Part k × Part l) := do
  let p ← Part.between n start stop
  let a ← Part.between k start stop
  let b ← Part.between l start stop
  return (p, a, b)

def sumChunk (lanes : Nat) : Chunk → Vector (Lane e) n → Vector (Lane e) n × Option Crash
  | .vector start stop, out =>
    match sumParts n k l start stop with
    | .error c => (out, some c)
    | .ok (p, a, b) => fill p (sumAt add as bs a b) lanes 0 out
  | .tail start stop, out =>
    fill (.whole n) (sumAt add as bs (.whole k) (.whole l)) (stop - start) start out

def sumBy (e : Element) (add : Lane e → Lane e → Lane e) : Kernel where
  name := "vector_add"
  input := e
  output := e
  apply s output inputs count :=
    match inputs with
    | [as, bs] =>
      let (out, crash) := Chunk.walk s.lanes count s.lanes_pos
        (sumChunk add (Slice.vector as) (Slice.vector bs) s.lanes) 0 (Slice.vector output)
      .walked out crash []
    | _ => .refused "vector_add" 2 inputs.length output
  length_apply := by
    intro s out ins count
    split
    · exact Run.length_walked ..
    · rfl

def sum (e : Element) : Kernel := sumBy e Lane.add

end Offload.Kernel
