import Offload.Error
import Offload.Memory.Encoding
import Offload.Size
import Offload.Slice

/-!
# Blocks of memory

A block is a number of bytes at an alignment.

* `Block.zeroed`  a fresh block, where the alignment is a power of two, the layout is valid and the
                  allocator grants it;
* `Block.view`    the first elements of a block, seen as lanes of a type;
* `Block.store`   the block with lanes written over its first bytes;
* `Block.update`  the block with the elements of a view changed.

Size and alignment never change.  A view that does not fit the block is a crash; in one that fits,
what was stored reads back (`view_store`).
-/

namespace Offload

/-- the allocator's answer to a size at an alignment -/
abbrev Allocator : Type := Nat → Nat → Bool

structure Block where
  bytes : List UInt8
  alignment : Nat
  deriving DecidableEq, Repr

namespace Block

def size (b : Block) : Nat := b.bytes.length

/-- the first size that no layout has, before it is rounded up to the alignment -/
def layoutLimit : Nat := Nat.pow 2 63

def zeroed (grants : Allocator) (size alignment : Nat) : Except Error Block :=
  if !Size.isPower alignment then .error (.invalidAlignment alignment)
  else if layoutLimit - alignment < size then
    .error (.allocationFailed size "invalid parameters to Layout::from_size_align")
  else if 0 < size ∧ grants size alignment = false then
    .error (.allocationFailed size "allocator returned null")
  else .ok ⟨List.replicate size 0, alignment⟩

theorem zeroed_eq_ok {grants : Allocator} {size alignment : Nat} {b : Block}
    (h : zeroed grants size alignment = .ok b) : b = ⟨List.replicate size 0, alignment⟩ := by
  unfold zeroed at h
  repeat' split at h
  all_goals simp_all

/-- Whether so many elements can be seen.  Only an empty block can lie at an address that does not
suit the type. -/
def check (b : Block) (e : Element) (count : Nat) : Except Crash Unit :=
  match Size.mul? count e.bytes with
  | none => .error (.overflow "multiply")
  | some bytes =>
    if b.size < bytes then .error (.rangeEnd bytes b.size)
    else if b.size = 0 ∧ b.alignment < e.bytes then .error .misaligned
    else .ok ()

/-- the first elements of a block -/
def view (b : Block) (e : Element) (count : Nat) : Except Crash (List (Lane e)) :=
  match b.check e count with
  | .error c => .error c
  | .ok () => .ok (Memory.decode count b.bytes)

/-- lanes written over the first bytes -/
def store {e : Element} (b : Block) (xs : List (Lane e)) : Block :=
  { b with bytes := Slice.put b.bytes 0 (Memory.encode xs) }

/-- A view keeps its length: of what a change gives only as much is written. -/
def update (b : Block) (e : Element) (count : Nat) (change : List (Lane e) → List (Lane e)) :
    Except Crash Block :=
  match b.view e count with
  | .error c => .error c
  | .ok xs => .ok (b.store (Slice.put xs 0 (change xs)))

theorem size_store {e : Element} (b : Block) (xs : List (Lane e)) : (b.store xs).size = b.size :=
  Slice.length_put ..

theorem alignment_store {e : Element} (b : Block) (xs : List (Lane e)) :
    (b.store xs).alignment = b.alignment := rfl

/-- Whether a view fits depends on size and alignment alone. -/
theorem check_store {e : Element} (b : Block) (xs : List (Lane e)) (e' : Element) (count : Nat) :
    (b.store xs).check e' count = b.check e' count := by
  unfold check
  rw [size_store, alignment_store]

theorem bytes_store {e : Element} {b : Block} {xs : List (Lane e)}
    (h : xs.length * e.bytes ≤ b.size) :
    (b.store xs).bytes = Memory.encode xs ++ b.bytes.drop (xs.length * e.bytes) := by
  have hl : (Memory.encode xs).length = xs.length * e.bytes := Memory.length_encode xs
  have hle : (Memory.encode xs).length ≤ b.bytes.length := by
    rw [hl]
    exact h
  show Slice.put b.bytes 0 (Memory.encode xs) = _
  rw [Slice.put_zero_eq_append hle, hl]

/-- To write what is there changes nothing. -/
theorem store_decode {e : Element} {b : Block} {n : Nat} (h : n * e.bytes ≤ b.size) :
    b.store (Memory.decode n b.bytes : List (Lane e)) = b := by
  have hl : (Memory.decode n b.bytes : List (Lane e)).length = n := Memory.length_decode n b.bytes
  obtain ⟨bytes, alignment⟩ := b
  refine congrArg (Block.mk · alignment) ?_
  refine (bytes_store (by rw [hl]; exact h)).trans ?_
  rw [hl, Memory.encode_decode h, List.take_append_drop]

theorem le_size_of_check {b : Block} {e : Element} {count : Nat} (h : b.check e count = .ok ()) :
    count * e.bytes ≤ b.size := by
  unfold check at h
  split at h
  · cases h
  · rename_i bytes hm
    have hb : bytes = count * e.bytes := by
      unfold Size.mul? at hm
      split at hm
      · exact (Option.some.inj hm).symm
      · cases hm
    split at h
    · cases h
    · rename_i hs
      rw [← hb]
      exact Nat.le_of_not_lt hs

/-- What was stored reads back. -/
theorem view_store {e : Element} {b : Block} {xs : List (Lane e)}
    (h : b.check e xs.length = .ok ()) : (b.store xs).view e xs.length = .ok xs := by
  unfold view
  rw [check_store, h, bytes_store (le_size_of_check h), Memory.decode_encode_append]

end Block

end Offload
