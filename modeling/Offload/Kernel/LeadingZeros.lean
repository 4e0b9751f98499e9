import Offload.Kernel.Lanewise

/-!
# Counting leading zeros

* `leadingZeros`         the number of zero bits above the highest one; 32 for zero
                         (`leadingZeros_spec`);
* `Kernel.inStep`        a register: a part of the output and one of the input, gone through together;
* `Kernel.countChunk`    one chunk, with the registers so far;
* `Kernel.leadingZeros`  the count for every element of one input.
-/

namespace Offload

/-- the number of zero bits above the highest one bit -/
def leadingZeros (x : BitVec 32) : BitVec 32 :=
  if x = 0 then 32 else BitVec.ofNat 32 (31 - x.toNat.log2)

theorem leadingZeros_zero : leadingZeros 0 = 32 := rfl

/-- The highest one bit stands where the count says. -/
theorem leadingZeros_spec {x : BitVec 32} (h : x ≠ 0) :
    (leadingZeros x).toNat ≤ 31 ∧ Nat.pow 2 (31 - (leadingZeros x).toNat) ≤ x.toNat ∧
      x.toNat < Nat.pow 2 (32 - (leadingZeros x).toNat) := by
  have hx : x.toNat ≠ 0 := by
    intro h0
    exact h (BitVec.eq_of_toNat_eq (by simpa using h0))
  have hlog : x.toNat.log2 < 32 := (Nat.log2_lt hx).mpr x.isLt
  have hz : (leadingZeros x).toNat = 31 - x.toNat.log2 := by
    rw [leadingZeros, if_neg h, BitVec.toNat_ofNat, Nat.mod_eq_of_lt (by omega)]
  rw [hz]
  have h1 : 31 - (31 - x.toNat.log2) = x.toNat.log2 := by omega
  have h2 : 32 - (31 - x.toNat.log2) = x.toNat.log2 + 1 := by omega
  rw [h1, h2]
  exact ⟨by omega, Nat.log2_self_le hx, Nat.lt_log2_self⟩

namespace Kernel

section
variable {i o : Element} {n k : Nat}

/-- At most `left` places of two parts, from a place on.  The loop ends where either part does. -/
def inStep (f : Lane i → Lane o) (p : Part n) (q : Part k) (xs : Vector (Lane i) k) :
    Nat → Nat → Vector (Lane o) n → Vector (Lane o) n
  | 0, _, out => out
  | left + 1, i, out =>
    if hp : i < p.length then
      if hq : i < q.length then
        inStep f p q xs left (i + 1)
          (out.set (p.start + i) (f (xs.get ⟨q.start + i, Part.add_lt hq⟩)) (Part.add_lt hp))
      else out
    else out

/-- the parts of the output and of the input -/
def countParts (n k start stop : Nat) : Except Crash (Part n × Part k) := do
  let p ← Part.between n start stop
  let q ← Part.between k start stop
  return (p, q)

def countZeros (x : Lane .u32) : Lane .u32 := Offload.leadingZeros x

/-- A register is counted before anything else is done. -/
def countChunk (xs : Vector (Lane .u32) k) :
    Chunk → Vector (Lane .u32) n × Nat → (Vector (Lane .u32) n × Nat) × Option Crash
  | .vector start stop, (out, registers) =>
    match countParts n k start stop with
    | .error c => ((out, registers + 1), some c)
    | .ok (p, q) => ((inStep countZeros p q xs p.length 0 out, registers + 1), none)
  | .tail start stop, (out, registers) =>
    let (out, crash) := fill (.whole n) (fun i => ((Part.whole k).get xs i).map countZeros) (stop - start)
      start out
    ((out, registers), crash)

end

/-- what the kernel has to say when it has finished -/
def countRemark (s : Style) (registers count : Nat) : Trace.Note :=
  ⟨"leading_zero_count_applied", .trace,
    [("style", .text s.display), ("vector_steps", .natural registers), ("elements", .natural count)]⟩

def leadingZeros : Kernel where
  name := "leading_zero_count"
  input := .u32
  output := .u32
  apply s output inputs count :=
    match inputs with
    | [xs] =>
      let ((out, registers), crash) := Chunk.walk s.lanes count s.lanes_pos (countChunk (Slice.vector xs)) 0
        (Slice.vector output, 0)
      .walked out crash [countRemark s registers count]
    | _ => .refused "leading_zero_count" 1 inputs.length output
  length_apply := by
    intro s out ins count
    split
    · exact Run.length_walked ..
    · rfl

end Kernel

end Offload
