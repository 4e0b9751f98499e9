import Mathlib.Tactic.Common
import Offload.Accelerator.Handle
import Offload.Accelerator.Memory
import Offload.Proofs.Memory.Block

/-!
# Sound device memory

A memory is sound if every allocation has the bytes its elements need and the counters are the sums
over the live allocations.

* `Allocation.Shape`    all that is said of an allocation apart from its contents;
* `Memory.Sound`        the invariant; in a sound memory no operation crashes, and what is given back
                        was counted (`Sound.free`);
* `Memory.Rewrites`     at most the contents of one allocation differ.  This is all that writes, copies
                        and kernels can do, whatever numbers and types they are given;
* `Memory.enlist`, `Memory.release`  the memory with one allocation more or less.
-/

namespace Offload

namespace Accelerator

/-! ## allocations -/

namespace Allocation

structure Shape where
  space : MemoryClass
  element : Element
  length : Nat
  size : Nat
  alignment : Nat

def shape (a : Allocation) : Shape :=
  ⟨a.space, a.element, a.length, a.block.size, a.block.alignment⟩

theorem shape_store {e : Element} (a : Allocation) (xs : List (Lane e)) :
    (a.store xs).shape = a.shape := by
  show Shape.mk a.space a.element a.length (a.block.store xs).size a.block.alignment = _
  rw [Block.size_store]
  rfl

/-- An allocation has the bytes that its elements need, where they suit the type. -/
structure Sound (a : Allocation) : Prop where
  size_eq : a.block.size = a.length * a.element.bytes
  size_lt : a.block.size < Size.limit
  aligned : a.element.bytes ≤ a.block.alignment

theorem Sound.of_shape {a b : Allocation} (h : a.Sound) (hs : b.shape = a.shape) : b.Sound := by
  simp only [shape, Shape.mk.injEq] at hs
  obtain ⟨-, he, hl, hz, ha⟩ := hs
  exact ⟨by rw [hz, hl, he, h.size_eq], by rw [hz]; exact h.size_lt, by rw [he, ha]; exact h.aligned⟩

theorem check_eq_ok_iff {a : Allocation} {e : Element} {count : Nat} :
    a.check e count = .ok () ↔ a.element = e ∧ count ≤ a.length := by
  unfold check
  by_cases he : e = a.element
  · rw [if_neg (not_not_intro he)]
    by_cases hc : a.length < count
    · rw [if_pos hc]
      exact ⟨fun h => (nomatch h), fun h => absurd h.2 (Nat.not_le.mpr hc)⟩
    · rw [if_neg hc]
      exact ⟨fun _ => ⟨he.symm, Nat.not_lt.mp hc⟩, fun _ => rfl⟩
  · rw [if_pos he]
    exact ⟨fun h => (nomatch h), fun h => absurd h.1.symm he⟩

/-- In a sound allocation nothing but the type and the number of elements decides. -/
theorem Sound.fits {a : Allocation} (h : a.Sound) (e : Element) (count : Nat) :
    a.fits e count = .ofExcept (a.check e count) := by
  unfold Allocation.fits
  cases hc : a.check e count with
  | error err => rfl
  | ok u =>
    obtain ⟨he, hn⟩ := check_eq_ok_iff.mp hc
    subst he
    have hb : count * a.element.bytes ≤ a.block.size := by
      rw [h.size_eq]
      exact Nat.mul_le_mul_right _ hn
    simp only [Block.check_of_le hb h.size_lt h.aligned]
    rfl

theorem Sound.fits_ne_crash {a : Allocation} (h : a.Sound) (e : Element) (count : Nat) (c : Crash) :
    a.fits e count ≠ .error (.crash c) := by
  rw [h.fits]
  cases a.check e count <;> exact fun h => (nomatch h)

/-- so many zero elements -/
def zeroed (space : MemoryClass) (e : Element) (count alignment : Nat) : Allocation :=
  ⟨⟨List.replicate (count * e.bytes) 0, alignment⟩, space, e, count⟩

/-- the bytes of an allocation, if it is of the class -/
def sizeIn (space : MemoryClass) (a : Allocation) : Nat := if a.space = space then a.block.size else 0

end Allocation

namespace Memory

/-! ## the invariant -/

structure Sound (m : Memory) : Prop where
  numbered : ∀ {id a}, m.live.find? id = some a → id < m.nextId
  allocations : ∀ {id a}, m.live.find? id = some a → a.Sound
  counted : ∀ space, m.bytesOf space = m.live.total (Allocation.sizeIn space)
  limited : ∀ {limit}, m.limit = some limit → m.deviceBytes ≤ limit

theorem sound_fresh (limit : Option Nat) : (fresh limit).Sound where
  numbered h := nomatch h
  allocations h := nomatch h
  counted space := by cases space <;> rfl
  limited _ := Nat.zero_le _

/-! ## rewriting -/

/-- At most the contents of one allocation differ. -/
inductive Rewrites (m : Memory) : Memory → Prop
  | same : Rewrites m m
  | entry {id : Nat} {a b : Allocation} (find : m.live.find? id = some a) (shape : b.shape = a.shape) :
      Rewrites m (m.restore id b)

theorem find?_restore (m : Memory) (id : Nat) (a : Allocation) (j : Nat) :
    (m.restore id a).live.find? j = if j = id then some a else m.live.find? j :=
  Registry.find?_insert ..

theorem Sound.restore {m : Memory} (h : m.Sound) {id : Nat} {a b : Allocation}
    (find : m.live.find? id = some a) (shape : b.shape = a.shape) : (m.restore id b).Sound where
  numbered {j c} hj := by
    rw [find?_restore] at hj
    split at hj
    · rename_i hjd
      rw [hjd]
      exact h.numbered find
    · exact h.numbered hj
  allocations {j c} hj := by
    rw [find?_restore] at hj
    split at hj
    · cases hj
      exact (h.allocations find).of_shape shape
    · exact h.allocations hj
  counted space := by
    have hf : b.sizeIn space = a.sizeIn space := by
      simp only [Allocation.shape, Allocation.Shape.mk.injEq] at shape
      unfold Allocation.sizeIn
      rw [shape.1, shape.2.2.2.1]
    show m.bytesOf space = (m.live.insert id b).total _
    rw [Registry.total_insert_same find hf, h.counted]
  limited hl := h.limited hl

theorem Rewrites.sound {m n : Memory} (hr : m.Rewrites n) (h : m.Sound) : n.Sound := by
  cases hr with
  | same => exact h
  | entry find shape => exact h.restore find shape

theorem Rewrites.limit_eq {m n : Memory} (hr : m.Rewrites n) : n.limit = m.limit := by
  cases hr <;> rfl

theorem Rewrites.nextId_eq {m n : Memory} (hr : m.Rewrites n) : n.nextId = m.nextId := by
  cases hr <;> rfl

/-- Where something was live, something of the same shape is live. -/
theorem Rewrites.find {m n : Memory} (hr : m.Rewrites n) {id : Nat} {b : Allocation}
    (h : n.live.find? id = some b) : ∃ a, m.live.find? id = some a ∧ b.shape = a.shape := by
  cases hr with
  | same => exact ⟨b, h, rfl⟩
  | entry find shape =>
    rw [find?_restore] at h
    split at h
    · rename_i hid
      cases h
      exact ⟨_, hid ▸ find, shape⟩
    · exact ⟨b, h, rfl⟩

/-- The same numbers are live. -/
theorem Rewrites.contains_eq {m n : Memory} (hr : m.Rewrites n) (id : Nat) : n.contains id = m.contains id := by
  cases hr with
  | same => rfl
  | @entry j a b find shape =>
    unfold contains Registry.contains
    rw [find?_restore]
    split
    · rename_i hj
      rw [hj, find]
      rfl
    · rfl

/-- Sums over what does not change do not change. -/
theorem Rewrites.total_eq {m n : Memory} (hr : m.Rewrites n) {f : Allocation → Nat}
    (hf : ∀ a b : Allocation, a.shape = b.shape → f a = f b) : n.live.total f = m.live.total f := by
  cases hr with
  | same => rfl
  | entry find shape => exact Registry.total_insert_same find (hf _ _ shape)

/-! ## the operations, whatever they are given -/

theorem restore_erase (m : Memory) (id : Nat) (a : Allocation) :
    Memory.restore { m with live := m.live.erase id } id a = m.restore id a := by
  show Memory.mk _ _ _ _ _ = Memory.mk _ _ _ _ _
  rw [Registry.insert_erase]

theorem rewrites_write {e : Element} (m : Memory) (id : Nat) (xs : List (Lane e)) :
    m.Rewrites (m.write id xs).2 := by
  unfold write find
  cases hf : m.live.find? id with
  | none => exact .same
  | some a =>
    cases hx : a.fits e xs.length with
    | error f =>
      simp only [hx]
      exact .same
    | ok u =>
      simp only [hx]
      exact .entry hf (a.shape_store xs)

/-- With the destination out of the registry the source is still what it was. -/
theorem view_erase {m : Memory} {src dst : Nat} (h : dst ≠ src) (e : Element) (count : Nat) :
    Memory.view { m with live := m.live.erase dst } src e count = m.view src e count := by
  unfold view find
  simp only [Registry.find?_erase, if_neg (Ne.symm h)]

theorem Sound.view_ne_crash {m : Memory} (h : m.Sound) (id : Nat) (e : Element) (count : Nat)
    (c : Crash) : m.view id e count ≠ .error (.crash c) := by
  unfold Memory.view find
  cases hf : m.live.find? id with
  | none => exact fun h => (nomatch h)
  | some a =>
    show a.view e count ≠ _
    unfold Allocation.view
    rw [(h.allocations hf).fits]
    cases a.check e count <;> exact fun h => (nomatch h)

/-- A copy between two live allocations: the source is looked at first. -/
theorem Sound.copyBetween {m : Memory} (h : m.Sound) {dst src : Nat} (hne : dst ≠ src)
    {b : Allocation} (hb : m.live.find? dst = some b) (e : Element) (count : Nat) :
    m.copyBetween e dst src count =
      match m.view src e count with
      | .error f => (.error f, m)
      | .ok xs =>
        match b.fits e count with
        | .error f => (.error f, m)
        | .ok () => (.ok (), m.restore dst (b.store xs)) := by
  have hback : m.restore dst b = m := by
    show Memory.mk _ _ _ _ _ = _
    rw [Registry.insert_find? hb]
  unfold Memory.copyBetween take find
  simp only [if_neg hne, hb, view_erase hne, restore_erase]
  -- after a crash the destination would stay out, but in a sound memory neither look crashes
  cases hv : m.view src e count with
  | error f =>
    cases f with
    | error err => simp only [hback]
    | crash c => exact absurd hv (h.view_ne_crash src e count c)
  | ok xs =>
    cases hf : b.fits e count with
    | error f =>
      cases f with
      | error err => simp only [hback]
      | crash c => exact absurd hf ((h.allocations hb).fits_ne_crash e count c)
    | ok u => rfl

theorem Sound.rewrites_copyBetween {m : Memory} (h : m.Sound) (e : Element) (dst src count : Nat) :
    m.Rewrites (m.copyBetween e dst src count).2 := by
  by_cases hne : dst = src
  · unfold Memory.copyBetween
    rw [if_pos hne]
    cases m.fits src e count <;> exact .same
  · cases hb : m.live.find? dst with
    | none =>
      unfold Memory.copyBetween take find
      rw [if_neg hne, hb]
      exact .same
    | some b =>
      rw [h.copyBetween hne hb]
      cases m.view src e count with
      | error f => exact .same
      | ok xs =>
        cases b.fits e count with
        | error f => exact .same
        | ok u => exact .entry hb (b.shape_store xs)

/-! ## coming and going -/

/-- with one more allocation -/
def enlist (m : Memory) (a : Allocation) : Memory :=
  { m.setBytes a.space (m.bytesOf a.space + a.block.size) with
    live := m.live.insert m.nextId a, nextId := m.nextId + 1 }

/-- without an allocation that was live -/
def release (m : Memory) (id : Nat) (a : Allocation) : Memory :=
  Memory.setBytes { m with live := m.live.erase id } a.space (m.bytesOf a.space - a.block.size)

theorem bytesOf_setBytes (m : Memory) (space : MemoryClass) (n : Nat) (s : MemoryClass) :
    (m.setBytes space n).bytesOf s = if space = s then n else m.bytesOf s := by
  cases space <;> cases s <;> rfl

theorem bytesOf_enlist (m : Memory) (a : Allocation) (s : MemoryClass) :
    (m.enlist a).bytesOf s = m.bytesOf s + a.sizeIn s := by
  have h : (m.enlist a).bytesOf s = (m.setBytes a.space (m.bytesOf a.space + a.block.size)).bytesOf s := by
    cases s <;> rfl
  rw [h, bytesOf_setBytes, Allocation.sizeIn]
  split
  · rename_i hs
    rw [hs]
  · rfl

theorem bytesOf_release (m : Memory) (id : Nat) (a : Allocation) (s : MemoryClass) :
    (m.release id a).bytesOf s = m.bytesOf s - a.sizeIn s := by
  unfold release
  rw [bytesOf_setBytes, Allocation.sizeIn]
  split
  · rename_i hs
    rw [hs]
  · cases s <;> rfl

theorem find?_enlist (m : Memory) (a : Allocation) (j : Nat) :
    (m.enlist a).live.find? j = if j = m.nextId then some a else m.live.find? j :=
  Registry.find?_insert ..

theorem live_release (m : Memory) (id : Nat) (a : Allocation) :
    (m.release id a).live = m.live.erase id := by
  unfold release setBytes
  cases a.space <;> rfl

theorem nextId_release (m : Memory) (id : Nat) (a : Allocation) :
    (m.release id a).nextId = m.nextId := by
  unfold release setBytes
  cases a.space <;> rfl

theorem limit_enlist (m : Memory) (a : Allocation) : (m.enlist a).limit = m.limit := by
  unfold enlist setBytes
  cases a.space <;> rfl

theorem limit_release (m : Memory) (id : Nat) (a : Allocation) :
    (m.release id a).limit = m.limit := by
  unfold release setBytes
  cases a.space <;> rfl

theorem Sound.find?_nextId {m : Memory} (h : m.Sound) : m.live.find? m.nextId = none := by
  cases hf : m.live.find? m.nextId with
  | none => rfl
  | some a => exact absurd (h.numbered hf) (Nat.lt_irrefl _)

theorem Sound.sizeIn_le {m : Memory} (h : m.Sound) {id : Nat} {a : Allocation}
    (hf : m.live.find? id = some a) (space : MemoryClass) : a.sizeIn space ≤ m.bytesOf space := by
  have ht := m.live.total_erase id (Allocation.sizeIn space)
  rw [hf, Option.elim_some] at ht
  rw [h.counted]
  omega

/-- the text of an allocation for which the limit leaves no room -/
def limitText (available limit : Nat) : String :=
  s!"device memory limit reached ({available} of {limit} bytes free)"

theorem checkRoom_cases (m : Memory) (size : Nat) (space : MemoryClass) :
    m.checkRoom size space = .ok () ∨
    ∃ limit, space = .deviceExclusive ∧ m.limit = some limit ∧ limit - m.deviceBytes < size ∧
      m.checkRoom size space =
        .error (.allocationFailed size (limitText (limit - m.deviceBytes) limit)) := by
  unfold checkRoom
  cases space with
  | hostVisible => exact .inl rfl
  | deviceExclusive =>
    cases m.limit with
    | none => exact .inl rfl
    | some limit =>
      dsimp only
      split
      · rename_i hs
        exact .inr ⟨limit, rfl, rfl, hs, rfl⟩
      · exact .inl rfl

/-- whether the limit leaves room, as a condition on the bytes -/
theorem checkRoom_eq_ok_iff {m : Memory} {size : Nat} {space : MemoryClass} :
    m.checkRoom size space = .ok () ↔
      ∀ limit, space = .deviceExclusive → m.limit = some limit → size ≤ limit - m.deviceBytes := by
  unfold checkRoom
  cases space with
  | hostVisible => exact ⟨fun _ _ h => (nomatch h), fun _ => rfl⟩
  | deviceExclusive =>
    cases m.limit with
    | none => exact ⟨fun _ _ _ h => (nomatch h), fun _ => rfl⟩
    | some limit =>
      show (if limit - m.deviceBytes < size then Except.error _ else _) = _ ↔ _
      by_cases hs : limit - m.deviceBytes < size
      · rw [if_pos hs]
        exact ⟨fun h => (nomatch h), fun h => absurd (h limit rfl rfl) (Nat.not_le.mpr hs)⟩
      · rw [if_neg hs]
        refine ⟨fun _ l _ hl => ?_, fun _ => rfl⟩
        cases hl
        exact Nat.not_lt.mp hs

theorem Sound.enlist {m : Memory} (h : m.Sound) {a : Allocation} (ha : a.Sound)
    (room : m.checkRoom a.block.size a.space = .ok ()) : (m.enlist a).Sound where
  numbered {id b} hb := by
    rw [find?_enlist] at hb
    show id < m.nextId + 1
    split at hb
    · omega
    · exact Nat.lt_succ_of_lt (h.numbered hb)
  allocations {id b} hb := by
    rw [find?_enlist] at hb
    split at hb
    · cases hb
      exact ha
    · exact h.allocations hb
  counted space := by
    show _ = (m.live.insert m.nextId a).total _
    rw [bytesOf_enlist, Registry.total_insert_new h.find?_nextId, h.counted]
  limited {limit} hl := by
    rw [limit_enlist] at hl
    have hd : (m.enlist a).deviceBytes = m.deviceBytes + a.sizeIn .deviceExclusive :=
      m.bytesOf_enlist a .deviceExclusive
    have hm := h.limited hl
    rw [hd, Allocation.sizeIn]
    split
    · rename_i hs
      have := checkRoom_eq_ok_iff.mp room limit hs hl
      omega
    · exact hm

theorem Sound.release {m : Memory} (h : m.Sound) {id : Nat} {a : Allocation}
    (hf : m.live.find? id = some a) : (m.release id a).Sound where
  numbered {j b} hb := by
    rw [live_release, Registry.find?_erase] at hb
    rw [nextId_release]
    split at hb
    · cases hb
    · exact h.numbered hb
  allocations {j b} hb := by
    rw [live_release, Registry.find?_erase] at hb
    split at hb
    · cases hb
    · exact h.allocations hb
  counted space := by
    have ht := m.live.total_erase id (Allocation.sizeIn space)
    rw [hf, Option.elim_some] at ht
    rw [bytesOf_release, live_release, h.counted]
    omega
  limited {limit} hl := by
    rw [limit_release] at hl
    have hd : (m.release id a).deviceBytes = m.deviceBytes - a.sizeIn .deviceExclusive :=
      m.bytesOf_release id a .deviceExclusive
    have := h.limited hl
    omega

theorem sound_releaseAll (m : Memory) : m.releaseAll.2.2.Sound where
  numbered h := nomatch h
  allocations h := nomatch h
  counted space := by cases space <;> rfl
  limited _ := Nat.zero_le _

theorem allocate_eq_ok {m n : Memory} {grants : Allocator} {size alignment : Nat}
    {space : MemoryClass} {e : Element} {length id : Nat}
    (h : m.allocate grants size alignment space e length = .ok (id, n)) :
    m.checkRoom size space = .ok () ∧ id = m.nextId ∧
      n = m.enlist ⟨⟨List.replicate size 0, alignment⟩, space, e, length⟩ := by
  unfold allocate at h
  cases hr : m.checkRoom size space with
  | error err =>
    rw [hr] at h
    cases h
  | ok u =>
    cases hz : Block.zeroed grants size alignment with
    | error err =>
      simp only [hr, hz] at h
      cases h
    | ok block =>
      have hb := Block.zeroed_eq_ok hz
      simp only [hr, hz] at h
      cases h
      refine ⟨rfl, rfl, ?_⟩
      rw [hb]
      unfold enlist Block.size
      simp only [List.length_replicate]

/-- In a sound memory what is given back was counted. -/
theorem Sound.free {m : Memory} (h : m.Sound) (id : Nat) (space : MemoryClass) :
    m.free id space =
      match m.live.find? id with
      | none => (.error (.error (.invalidHandle id)), m)
      | some a =>
        if a.space ≠ space then (.error (.error (.wrongMemoryClass id space a.space)), m)
        else (.ok a.block.size, m.release id a) := by
  unfold Memory.free find
  cases hf : m.live.find? id with
  | none => rfl
  | some a =>
    have hle : a.sizeIn a.space ≤ m.bytesOf a.space := h.sizeIn_le hf a.space
    rw [Allocation.sizeIn, if_pos rfl] at hle
    simp only [if_neg (Nat.not_lt.mpr hle)]
    rfl

end Memory

end Accelerator

end Offload
