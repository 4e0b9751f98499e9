import Offload.Accelerator.Executor
import Offload.Proofs.Accelerator.Memory

/-!
# Handles on sound memory

* `Allocation.Matches`  a handle says what the allocation is: class, type, length, and so many bytes;
* `Memory.Holds`        a handle names a live allocation that it matches.  Then views, writes and copies
                        of no more elements than the handle counts are not refused, and they are no
                        more than reading and writing bytes;
* `Memory.contents`     the elements that a handle stands for; a write replaces the first of them
                        (`Holds.contents_store`) and leaves those of other handles alone
                        (`contents_restore`);
* `Memory.SameBut`      two memories that differ at most in the first bytes of one allocation;
* `kernelJob`           a submission calls the kernel once, on what the handles name
                        (`Holds.kernelJob`).
-/

namespace Offload.Accelerator

/-- The handle says what the allocation is. -/
structure Allocation.Matches {e : Element} (a : Allocation) (h : Handle e) : Prop where
  space_eq : a.space = h.space
  element_eq : a.element = e
  length_eq : a.length = h.length
  size_eq : a.block.size = h.length * e.bytes

theorem Allocation.Matches.of_shape {e : Element} {a b : Allocation} {h : Handle e}
    (hm : a.Matches h) (hs : b.shape = a.shape) : b.Matches h := by
  simp only [shape, Shape.mk.injEq] at hs
  obtain ⟨hp, he, hl, hz, -⟩ := hs
  exact ⟨hp.trans hm.space_eq, he.trans hm.element_eq, hl.trans hm.length_eq, hz.trans hm.size_eq⟩

/-- the first elements of an allocation -/
def Allocation.front (a : Allocation) (e : Element) (count : Nat) : List (Lane e) :=
  Offload.Memory.decode count a.block.bytes

namespace Memory

/-- The handle names a live allocation and says what it is. -/
structure Holds {e : Element} (m : Memory) (h : Handle e) (a : Allocation) : Prop where
  find : m.live.find? h.id = some a
  matches' : a.Matches h
  sound : a.Sound

namespace Holds

variable {e : Element} {m : Memory} {h : Handle e} {a : Allocation} {count : Nat}

theorem fits (hh : m.Holds h a) (hn : count ≤ h.length) : a.fits e count = .ok () := by
  have hc : a.check e count = .ok () :=
    Allocation.check_eq_ok_iff.mpr ⟨hh.matches'.element_eq, by rw [hh.matches'.length_eq]; exact hn⟩
  rw [hh.sound.fits, hc]
  rfl

theorem allocation_view (hh : m.Holds h a) (hn : count ≤ h.length) :
    a.view e count = .ok (a.front e count) := by
  unfold Allocation.view
  rw [hh.fits hn]
  rfl

theorem view (hh : m.Holds h a) (hn : count ≤ h.length) :
    m.view h.id e count = .ok (a.front e count) := by
  unfold Memory.view Memory.find
  simp only [hh.find, hh.allocation_view hn]

theorem write (hh : m.Holds h a) {xs : List (Lane e)} (hn : xs.length ≤ h.length) :
    m.write h.id xs = (.ok (), m.restore h.id (a.store xs)) := by
  unfold Memory.write Memory.find
  simp only [hh.find, hh.fits hn]
  rfl

/-- A copy onto itself changes nothing. -/
theorem copyBetween_self (hh : m.Holds h a) (hn : count ≤ h.length) :
    m.copyBetween e h.id h.id count = (.ok (), m) := by
  unfold Memory.copyBetween Memory.fits Memory.find
  simp only [if_true, hh.find, hh.fits hn]

theorem copyBetween (hm : m.Sound) (hh : m.Holds h a) {g : Handle e} {b : Allocation}
    (hg : m.Holds g b) (hne : h.id ≠ g.id) (hn : count ≤ h.length) (hk : count ≤ g.length) :
    m.copyBetween e h.id g.id count = (.ok (), m.restore h.id (a.store (b.front e count))) := by
  rw [hm.copyBetween hne hh.find, hg.view hk]
  simp only [hh.fits hn]

end Holds

/-! ## contents -/

/-- the elements that a handle stands for; none if what it named is gone -/
def contents {e : Element} (m : Memory) (h : Handle e) : List (Lane e) :=
  match m.live.find? h.id with
  | some a => a.front e h.length
  | none => []

theorem contents_congr {e : Element} {m n : Memory} {h : Handle e}
    (hf : n.live.find? h.id = m.live.find? h.id) : n.contents h = m.contents h := by
  unfold contents
  rw [hf]

theorem contents_restore {e : Element} (m : Memory) {h : Handle e} {id : Nat} (a : Allocation)
    (hne : h.id ≠ id) : (m.restore id a).contents h = m.contents h :=
  contents_congr ((find?_restore ..).trans (if_neg hne))

namespace Holds

variable {e : Element} {m : Memory} {h : Handle e} {a : Allocation} {count : Nat}

theorem contents (hh : m.Holds h a) : m.contents h = a.front e h.length := by
  unfold Memory.contents
  rw [hh.find]

theorem length_contents (hh : m.Holds h a) : (m.contents h).length = h.length := by
  rw [hh.contents]
  exact Offload.Memory.length_decode ..

theorem take_contents (hh : m.Holds h a) (hn : count ≤ h.length) :
    (m.contents h).take count = a.front e count := by
  rw [hh.contents]
  exact Offload.Memory.take_decode hn _

theorem size_le (hh : m.Holds h a) (hn : count ≤ h.length) : count * e.bytes ≤ a.block.size := by
  rw [hh.matches'.size_eq]
  exact Nat.mul_le_mul_right _ hn

/-- What is written is read back, and behind it what was there. -/
theorem contents_store (hh : m.Holds h a) {xs : List (Lane e)} (hn : xs.length ≤ h.length) :
    (m.restore h.id (a.store xs)).contents h = xs ++ (m.contents h).drop xs.length := by
  have hb : (a.store xs).block.bytes =
      Offload.Memory.encode xs ++ a.block.bytes.drop (xs.length * e.bytes) :=
    Block.bytes_store (hh.size_le hn)
  rw [hh.contents]
  unfold Memory.contents
  rw [find?_restore, if_pos rfl]
  show Offload.Memory.decode h.length (a.store xs).block.bytes = _
  rw [hb]
  exact Offload.Memory.decode_encode_drop hn _

/-- To write what is there changes nothing. -/
theorem restore_front (hh : m.Holds h a) (hn : count ≤ h.length) :
    m.restore h.id (a.store (a.front e count)) = m := by
  have hs : a.store (a.front e count) = a := by
    show { a with block := a.block.store (a.front e count) } = a
    rw [show a.block.store (a.front e count) = a.block from Block.store_decode (hh.size_le hn)]
  show Memory.mk _ _ _ _ _ = _
  rw [hs, Registry.insert_find? hh.find]

end Holds

/-! ## several handles -/

/-- The handles name live allocations that they match, in turn. -/
def HoldAll {e : Element} (m : Memory) (hs : List (Handle e)) (as : List Allocation) : Prop :=
  List.Forall₂ m.Holds hs as

theorem HoldAll.views {e : Element} {m : Memory} {hs : List (Handle e)} {as : List Allocation}
    {count : Nat} (hh : m.HoldAll hs as) (hn : ∀ h ∈ hs, count ≤ h.length) :
    m.views e count (hs.map (·.id)) = .ok (as.map (·.front e count)) := by
  induction hh with
  | nil => rfl
  | cons hd _ ih =>
    rw [List.map_cons, List.map_cons, Memory.views, hd.view (hn _ List.mem_cons_self)]
    simp only [ih fun h hm => hn h (List.mem_cons_of_mem _ hm)]

/-- At most the first bytes of one allocation differ. -/
structure SameBut (m n : Memory) (id bytes : Nat) : Prop where
  nextId_eq : n.nextId = m.nextId
  bytesOf_eq : ∀ space, n.bytesOf space = m.bytesOf space
  limit_eq : n.limit = m.limit
  others : ∀ j, j ≠ id → n.live.find? j = m.live.find? j
  shape_eq : (n.live.find? id).map (·.shape) = (m.live.find? id).map (·.shape)
  rest_eq : (n.live.find? id).map (·.block.bytes.drop bytes) =
    (m.live.find? id).map (·.block.bytes.drop bytes)

theorem Holds.sameBut_store {e : Element} {m : Memory} {h : Handle e} {a : Allocation}
    (hh : m.Holds h a) {xs : List (Lane e)} (hn : xs.length ≤ h.length) :
    m.SameBut (m.restore h.id (a.store xs)) h.id (xs.length * e.bytes) where
  nextId_eq := rfl
  bytesOf_eq space := by cases space <;> rfl
  limit_eq := rfl
  others j hj := by rw [find?_restore, if_neg hj]
  shape_eq := by
    rw [find?_restore, if_pos rfl, hh.find, Option.map_some, Option.map_some, Allocation.shape_store]
  rest_eq := by
    have hb : (a.store xs).block.bytes.drop (xs.length * e.bytes) =
        a.block.bytes.drop (xs.length * e.bytes) :=
      Block.drop_store (hh.size_le hn)
    rw [find?_restore, if_pos rfl, hh.find, Option.map_some, Option.map_some, hb]

/-- Views do not look at what is out of the registry, unless it is asked for. -/
theorem views_erase {m : Memory} {out : Nat} {ids : List Nat} (h : ∀ id ∈ ids, out ≠ id)
    (e : Element) (count : Nat) :
    Memory.views { m with live := m.live.erase out } e count ids = m.views e count ids := by
  induction ids with
  | nil => rfl
  | cons id ids ih =>
    rw [Memory.views, Memory.views, view_erase (h id List.mem_cons_self),
      ih fun j hj => h j (List.mem_cons_of_mem _ hj)]

end Memory

namespace Executor

/-! ## the command of a submission -/

/-- Whatever it is given, only the contents of the output change. -/
theorem rewrites_kernelJob (m : Memory) (k : Kernel) (s : Style) (output : Nat) (inputs : List Nat)
    (count : Nat) : m.Rewrites (kernelJob k s output inputs count m).memory := by
  unfold kernelJob Memory.take Memory.find
  cases hf : m.live.find? output with
  | none => exact .same
  | some a =>
    simp only [Memory.restore_erase]
    cases a.view k.output count with
    | error f => exact .entry hf rfl
    | ok out =>
      cases hv : Memory.views { m with live := m.live.erase output } k.input count inputs with
      | error f => exact .entry hf rfl
      | ok ins => exact .entry hf (a.shape_store _)

end Executor

/-- The kernel runs on the first elements of what the handles name, and what it wrote stays. -/
theorem Memory.Holds.kernelJob {m : Memory} {k : Kernel} {s : Style}
    {output : Handle k.output} {a : Allocation} (ho : m.Holds output a)
    {inputs : List (Handle k.input)} {as : List Allocation} (hi : m.HoldAll inputs as)
    (hne : ∀ h ∈ inputs, h.id ≠ output.id) {count : Nat} (hn : count ≤ output.length)
    (hk : ∀ h ∈ inputs, count ≤ h.length) :
    Executor.kernelJob k s output.id (inputs.map (·.id)) count m =
      let run := k.apply s (a.front k.output count) (as.map (·.front k.input count)) count
      ⟨m.restore output.id (a.store run.output), run.outcome, run.notes⟩ := by
  have hid : ∀ id ∈ inputs.map (·.id), output.id ≠ id := by
    intro id hid
    obtain ⟨h, hh, rfl⟩ := List.mem_map.mp hid
    exact Ne.symm (hne h hh)
  unfold Executor.kernelJob Memory.take Memory.find
  simp only [ho.find, ho.allocation_view hn, Memory.views_erase hid, hi.views hk,
    Memory.restore_erase]

end Offload.Accelerator
