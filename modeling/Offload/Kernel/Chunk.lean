import Offload.Style
import Offload.Size

/-!
# Chunks

A kernel walks its elements in steps of one register.  Full steps are vector chunks; what is left at
the end is the tail.

* `Chunk.next`  the step from a position on.  A position plus a full register must be a size, even
                where the step would be shorter;
* `Chunk.walk`  carries a state over the chunks, up to the end or the first crash;
* `chunks`      the chunks themselves.
-/

namespace Offload.Kernel

inductive Chunk where
  /-- exactly one register -/
  | vector (start stop : Nat)
  /-- less than one register -/
  | tail (start stop : Nat)
  deriving DecidableEq, Repr

namespace Chunk

def start : Chunk → Nat
  | vector a _ | tail a _ => a

def stop : Chunk → Nat
  | vector _ b | tail _ b => b

/-- what comes next on a walk -/
inductive Step where
  | finished
  | chunk (c : Chunk)
  | overflow
  deriving DecidableEq, Repr

def next (lanes count position : Nat) : Step :=
  if count ≤ position then .finished
  else if Size.limit ≤ position + lanes then .overflow
  else if position + lanes ≤ count then .chunk (vector position (position + lanes))
  else .chunk (tail position count)

theorem lt_stop_of_next {lanes count position : Nat} {c : Chunk} (hl : 0 < lanes)
    (h : next lanes count position = .chunk c) : position < c.stop ∧ c.stop ≤ count := by
  unfold next at h
  split at h
  · cases h
  · split at h
    · cases h
    · split at h
      · cases h
        exact ⟨Nat.lt_add_of_pos_right hl, by assumption⟩
      · cases h
        exact ⟨Nat.lt_of_not_le (by assumption), Nat.le_refl _⟩

variable {σ : Type}

/-- Carries a state over the chunks from a position on.  A crash keeps what was done before it. -/
def walk (lanes count : Nat) (hl : 0 < lanes) (body : Chunk → σ → σ × Option Crash)
    (position : Nat) (s : σ) : σ × Option Crash :=
  match _h : next lanes count position with
  | .finished => (s, none)
  | .overflow => (s, some (.overflow "add"))
  | .chunk c =>
    match body c s with
    | (s, none) => walk lanes count hl body c.stop s
    | (s, some crash) => (s, some crash)
  termination_by count - position
  decreasing_by
    have := lt_stop_of_next hl _h
    omega

end Chunk

/-- the chunks of a number of elements, and the crash that ends them early -/
def chunks (s : Style) (count : Nat) : List Chunk × Option Crash :=
  let (cs, crash) := Chunk.walk s.lanes count s.lanes_pos (fun c cs => (c :: cs, none)) 0 []
  (cs.reverse, crash)

end Offload.Kernel
