import Offload.Host.Heap
import Offload.Proofs.Accelerator.Step

/-!
# Allocations on the host and on a device

Host memory and device memory are asked for with the same numbers.  Both sides first make a request of them
and then ask for a block, so they refuse the same requests with the same words and give the same blocks.

* `Request.Invalid`, `Request.Refused`  why a request is refused: by its numbers alone, by the layout, or by
                       the allocator;
* `Request.grant`      the block that a request gets; it gets one exactly if nothing speaks against it
                       (`grant_eq_error_iff`), and then zeros at the raised alignment (`zeroed_of_grant`);
* `Host.Heap.allocate_of_grant`, `Executor.allocate_of_grant`  all that either side adds to this;
* `allocations_agree`  both sides together.  Only a limit on device-exclusive memory makes a difference.
-/

namespace Offload

namespace Memory.Request

variable {grants : Allocator} {e : Element} {count alignment : Nat} {err : Error}

/-! ## requests -/

/-- The alignment is left open or a power of two. -/
def Aligned (alignment : Nat) : Prop := alignment = 0 ∨ ∃ k, alignment = Nat.pow 2 k

/-- The alignment is a proper one, and the bytes can be counted. -/
structure Valid (e : Element) (count alignment : Nat) : Prop where
  aligned : Aligned alignment
  counted : count * e.bytes < Size.limit

/-- refused by its numbers alone; the alignment is looked at first -/
inductive Invalid (e : Element) (count alignment : Nat) : Error → Prop where
  | misaligned : ¬ Aligned alignment → Invalid e count alignment (.invalidAlignment alignment)
  | overflow : Aligned alignment → Size.limit ≤ count * e.bytes →
      Invalid e count alignment (.allocationFailed Size.top "size overflow")

theorem not_aligned_iff : ¬ Aligned alignment ↔ alignment ≠ 0 ∧ Size.isPower alignment = false := by
  rw [Aligned, not_or, ← Size.isPower_iff, Bool.not_eq_true]

theorem effectiveAlignment_eq (e : Element) (alignment : Nat) :
    effectiveAlignment e alignment = max alignment e.bytes := by
  unfold effectiveAlignment
  split
  · rename_i hz
    rw [hz, Nat.zero_max]
  · rfl

theorem ofElements_of_valid (h : Valid e count alignment) :
    ofElements e count alignment = .ok ⟨count * e.bytes, max alignment e.bytes⟩ := by
  unfold ofElements
  rw [if_neg (not_aligned_iff.not.mp (not_not_intro h.aligned)), Size.mul?_eq_some h.counted,
    effectiveAlignment_eq]

theorem ofElements_of_invalid (h : Invalid e count alignment err) :
    ofElements e count alignment = .error err := by
  unfold ofElements
  cases h with
  | misaligned ha => rw [if_pos (not_aligned_iff.mp ha)]
  | overflow ha hs => rw [if_neg (not_aligned_iff.not.mp (not_not_intro ha)), Size.mul?_eq_none hs]

theorem valid_or_invalid (e : Element) (count alignment : Nat) :
    Valid e count alignment ∨ ∃ err, Invalid e count alignment err := by
  by_cases ha : Aligned alignment
  · by_cases hs : count * e.bytes < Size.limit
    · exact .inl ⟨ha, hs⟩
    · exact .inr ⟨_, .overflow ha (Nat.not_lt.mp hs)⟩
  · exact .inr ⟨_, .misaligned ha⟩

/-- A raised alignment is a power of two, as the lanes are of such sizes. -/
theorem isPower_max (h : Aligned alignment) (e : Element) : Size.isPower (max alignment e.bytes) = true := by
  have hbytes : Size.isPower e.bytes = true := by cases e <;> rfl
  rcases Nat.le_total alignment e.bytes with hle | hle
  · rwa [Nat.max_eq_right hle]
  · rw [Nat.max_eq_left hle]
    rcases h with rfl | hk
    · exact absurd e.bytes_pos (Nat.not_lt.mpr hle)
    · exact (Size.isPower_iff alignment).mpr hk

/-! ## blocks -/

/-- Why a request is refused. -/
inductive Refused (grants : Allocator) (e : Element) (count alignment : Nat) : Error → Prop where
  | invalid {reason} : Invalid e count alignment reason → Refused grants e count alignment reason
  | layout : Valid e count alignment → Block.layoutLimit - max alignment e.bytes < count * e.bytes →
      Refused grants e count alignment
        (.allocationFailed (count * e.bytes) "invalid parameters to Layout::from_size_align")
  | allocator : Valid e count alignment → count * e.bytes ≤ Block.layoutLimit - max alignment e.bytes →
      0 < count * e.bytes → grants (count * e.bytes) (max alignment e.bytes) = false →
      Refused grants e count alignment
        (.allocationFailed (count * e.bytes) "allocator returned null")

/-- so many zero elements at the raised alignment -/
structure Zeroed (e : Element) (count alignment : Nat) (b : Block) : Prop where
  size_eq : b.size = count * e.bytes
  alignment_eq : b.alignment = max alignment e.bytes
  view_eq : ∀ n ≤ count, b.view e n = .ok (List.replicate n 0)

/-- the block that a request gets -/
def grant (grants : Allocator) (e : Element) (count alignment : Nat) : Except Error Block :=
  match ofElements e count alignment with
  | .error err => .error err
  | .ok r => Block.zeroed grants r.size r.alignment

theorem grant_of_valid (h : Valid e count alignment) :
    grant grants e count alignment = Block.zeroed grants (count * e.bytes) (max alignment e.bytes) := by
  rw [grant, ofElements_of_valid h]

theorem grant_of_refused (h : Refused grants e count alignment err) :
    grant grants e count alignment = .error err := by
  cases h with
  | invalid hi => rw [grant, ofElements_of_invalid hi]
  | layout hv hs =>
    rw [grant_of_valid hv, Block.zeroed, isPower_max hv.aligned]
    exact if_pos hs
  | allocator hv hs hpos hg =>
    rw [grant_of_valid hv, Block.zeroed, isPower_max hv.aligned]
    exact (if_neg (Nat.not_lt.mpr hs)).trans (if_pos ⟨hpos, hg⟩)

theorem zeroed_block (h : count * e.bytes < Size.limit) :
    Zeroed e count alignment ⟨List.replicate (count * e.bytes) 0, max alignment e.bytes⟩ where
  size_eq := List.length_replicate
  alignment_eq := rfl
  view_eq n hn := by
    have hle : n * e.bytes ≤ count * e.bytes := Nat.mul_le_mul_right _ hn
    let b : Block := ⟨List.replicate (count * e.bytes) 0, max alignment e.bytes⟩
    have hsize : b.size = count * e.bytes := List.length_replicate
    have hcheck : b.check e n = .ok () :=
      Block.check_of_le (Nat.le_trans hle (Nat.le_of_eq hsize.symm)) (hsize ▸ h) (Nat.le_max_right ..)
    show b.view e n = _
    rw [Block.view, hcheck]
    exact congrArg Except.ok (decode_replicate n _ hle)

/-- Nothing else than what is listed speaks against a request. -/
theorem grant_cases (grants : Allocator) (e : Element) (count alignment : Nat) :
    (∃ err, Refused grants e count alignment err) ∨
      ∃ b, grant grants e count alignment = .ok b ∧ Zeroed e count alignment b := by
  rcases valid_or_invalid e count alignment with hv | ⟨err, hi⟩
  · by_cases hs : Block.layoutLimit - max alignment e.bytes < count * e.bytes
    · exact .inl ⟨_, .layout hv hs⟩
    · by_cases hg : 0 < count * e.bytes ∧ grants (count * e.bytes) (max alignment e.bytes) = false
      · exact .inl ⟨_, .allocator hv (Nat.not_lt.mp hs) hg.1 hg.2⟩
      · refine .inr ⟨_, ?_, zeroed_block hv.counted⟩
        rw [grant_of_valid hv, Block.zeroed, isPower_max hv.aligned]
        exact (if_neg hs).trans (if_neg hg)
  · exact .inl ⟨err, .invalid hi⟩

theorem grant_eq_error_iff :
    grant grants e count alignment = .error err ↔ Refused grants e count alignment err := by
  refine ⟨fun h => ?_, grant_of_refused⟩
  rcases grant_cases grants e count alignment with ⟨err', hr⟩ | ⟨b, hb, -⟩
  · rw [grant_of_refused hr] at h
    cases h
    exact hr
  · rw [hb] at h
    cases h

theorem zeroed_of_grant {b : Block} (h : grant grants e count alignment = .ok b) :
    Zeroed e count alignment b := by
  rcases grant_cases grants e count alignment with ⟨err, hr⟩ | ⟨b', hb, hz⟩
  · rw [grant_of_refused hr] at h
    cases h
  · rw [hb] at h
    cases h
    exact hz

end Memory.Request

open Memory (Request)
open Memory.Request

/-! ## the host's side -/

namespace Host.Heap

variable {h : Heap} {a : Ambient} {e : Element} {count alignment : Nat}

/-- A buffer of the host is a granted block with a ticket. -/
theorem allocate_of_grant (h : Heap) (a : Ambient) (manager : Nat) (e : Element) (count alignment : Nat) :
    h.allocate a manager e count alignment =
      match grant a.grants e count alignment with
      | .error err => ⟨h, .error err, []⟩
      | .ok block =>
        let m := h.manager manager
        let b : Buffer := ⟨⟨manager, m.issued + 1⟩, e, count, block⟩
        let size := count * e.bytes
        let actual := max alignment e.bytes
        ⟨{ h.setManager manager ⟨m.live + 1, m.bytes + size, m.issued + 1⟩ with
            buffers := h.buffers ++ [b] }, .ok b,
          Trace.measured a.settings (.allocation size actual "host" a.work) ++
            [.hostBufferAllocated b.ticket.id count e size actual]⟩ := by
  unfold allocate grant
  rcases valid_or_invalid e count alignment with hv | ⟨err, hi⟩
  · cases hz : Block.zeroed a.grants (count * e.bytes) (max alignment e.bytes) <;>
      simp only [ofElements_of_valid hv, hz]
  · simp only [ofElements_of_invalid hi]

theorem allocate_eq_error_iff {manager : Nat} {err : Error} :
    (h.allocate a manager e count alignment).result = .error err ↔
      Refused a.grants e count alignment err := by
  rw [← grant_eq_error_iff, h.allocate_of_grant]
  cases grant a.grants e count alignment with
  | error reason =>
    show Except.error _ = Except.error _ ↔ Except.error _ = Except.error _
    rw [Except.error.injEq, Except.error.injEq]
  | ok block => exact ⟨fun he => (nomatch he), fun he => (nomatch he)⟩

theorem heap_of_allocate_error {manager : Nat} {err : Error}
    (herr : (h.allocate a manager e count alignment).result = .error err) :
    (h.allocate a manager e count alignment).heap = h := by
  rw [h.allocate_of_grant] at herr ⊢
  cases hg : grant a.grants e count alignment with
  | error err => rfl
  | ok block =>
    rw [hg] at herr
    cases herr

theorem allocate_eq_ok {manager : Nat} {b : Buffer}
    (hb : (h.allocate a manager e count alignment).result = .ok b) :
    grant a.grants e count alignment = .ok b.block ∧ b.element = e ∧ b.length = count ∧
      b ∈ (h.allocate a manager e count alignment).heap.buffers := by
  rw [h.allocate_of_grant] at hb ⊢
  cases hg : grant a.grants e count alignment with
  | error err =>
    rw [hg] at hb
    cases hb
  | ok block =>
    rw [hg] at hb
    cases hb
    exact ⟨rfl, rfl, rfl, List.mem_append_right _ List.mem_cons_self⟩

end Host.Heap

/-! ## the device's side -/

namespace Accelerator

/-- The limit on device-exclusive bytes, if there is one, leaves room for so many more. -/
def Memory.HasRoom (m : Memory) (size : Nat) (space : MemoryClass) : Prop :=
  ∀ limit, space = .deviceExclusive → m.limit = some limit → size ≤ limit - m.deviceBytes

theorem Memory.allocate_of_room {m : Memory} {size : Nat} {space : MemoryClass} (h : m.HasRoom size space)
    (grants : Allocator) (alignment : Nat) (e : Element) (count : Nat) :
    m.allocate grants size alignment space e count =
      match Block.zeroed grants size alignment with
      | .error err => .error err
      | .ok block => .ok (m.nextId, m.enlist ⟨block, space, e, count⟩) := by
  unfold allocate
  rw [checkRoom_eq_ok_iff.mpr h]
  cases hz : Block.zeroed grants size alignment with
  | error err => rfl
  | ok block =>
    have hsize : block.size = size := by
      rw [Block.zeroed_eq_ok hz]
      exact List.length_replicate
    simp only [enlist, hsize]

/-- In its own type an allocation is seen as its block is. -/
theorem Allocation.view_of_block {b : Block} {e : Element} {n count : Nat} {xs : List (Lane e)}
    (h : b.view e n = .ok xs) (hn : n ≤ count) (space : MemoryClass) :
    (⟨b, space, e, count⟩ : Allocation).view e n = .ok xs := by
  unfold Allocation.view Allocation.fits
  rw [check_eq_ok_iff.mpr ⟨rfl, hn⟩]
  unfold Block.view at h
  cases hc : b.check e n with
  | error c =>
    rw [hc] at h
    cases h
  | ok u =>
    rw [hc] at h
    cases h
    rfl

namespace Executor

variable {x : Executor}

/-- A buffer of the device is a granted block under a number, where there is room for it. -/
theorem allocate_of_grant (hr : x.state = .ready) (a : Ambient) (e : Element) (count alignment : Nat)
    {space : MemoryClass} (hroom : x.memory.HasRoom (count * e.bytes) space) :
    x.allocate a e count space alignment =
      match grant a.grants e count alignment with
      | .error err => x.refuse err
      | .ok block =>
        ⟨{ x with memory := x.memory.enlist ⟨block, space, e, count⟩ },
          .ok ⟨x.memory.nextId, count, space, x.id⟩,
          Trace.measured a.settings
              (.allocation (count * e.bytes) (max alignment e.bytes) space.name a.work) ++
            [.deviceBufferAllocated x.id x.memory.nextId space count e]⟩ := by
  unfold allocate grant
  rw [checkReady_of_ready hr]
  rcases valid_or_invalid e count alignment with hv | ⟨err, hi⟩
  · cases hz : Block.zeroed a.grants (count * e.bytes) (max alignment e.bytes) <;>
      simp only [ofElements_of_valid hv, Memory.allocate_of_room hroom, hz]
  · simp only [ofElements_of_invalid hi]

/-- Where there is none, a request that is valid is refused for that. -/
theorem allocate_of_no_room (hr : x.state = .ready) (a : Ambient) (e : Element) (count alignment : Nat)
    {space : MemoryClass} (hroom : ¬ x.memory.HasRoom (count * e.bytes) space) :
    ∃ err, x.allocate a e count space alignment = x.refuse err ∧
      (Invalid e count alignment err ∨ Valid e count alignment ∧ space = .deviceExclusive ∧
        ∃ limit, x.memory.limit = some limit ∧ err = .allocationFailed (count * e.bytes)
          (Memory.limitText (limit - x.memory.deviceBytes) limit)) := by
  unfold allocate
  rw [checkReady_of_ready hr]
  rcases valid_or_invalid e count alignment with hv | ⟨err, hi⟩
  · rw [ofElements_of_valid hv]
    unfold Memory.allocate
    rcases x.memory.checkRoom_cases (count * e.bytes) space with hc | ⟨limit, hs, hl, -, hc⟩
    · exact absurd (Memory.checkRoom_eq_ok_iff.mp hc) hroom
    · simp only [hc]
      exact ⟨_, rfl, .inr ⟨hv, hs, limit, hl, rfl⟩⟩
  · rw [ofElements_of_invalid hi]
    exact ⟨err, rfl, .inl hi⟩

theorem allocate_eq_error_iff (hr : x.state = .ready) (a : Ambient) {e : Element} {count alignment : Nat}
    {space : MemoryClass} (hroom : x.memory.HasRoom (count * e.bytes) space) {f : Failure Error} :
    (x.allocate a e count space alignment).result = .error f ↔
      ∃ err, f = .error err ∧ Refused a.grants e count alignment err := by
  simp only [← grant_eq_error_iff, x.allocate_of_grant hr a e count alignment hroom]
  cases grant a.grants e count alignment with
  | error err =>
    constructor
    · intro hf
      cases hf
      exact ⟨err, rfl, rfl⟩
    · rintro ⟨err', rfl, herr⟩
      cases herr
      rfl
  | ok block => exact ⟨fun hf => (nomatch hf), fun ⟨_, _, herr⟩ => (nomatch herr)⟩

theorem executor_of_allocate_error (hr : x.state = .ready) {a : Ambient} {e : Element}
    {count alignment : Nat} {space : MemoryClass} {f : Failure Error}
    (hf : (x.allocate a e count space alignment).result = .error f) :
    (x.allocate a e count space alignment).executor = x := by
  by_cases hroom : x.memory.HasRoom (count * e.bytes) space
  · rw [x.allocate_of_grant hr a e count alignment hroom] at hf ⊢
    cases hg : grant a.grants e count alignment with
    | error err => rfl
    | ok block =>
      rw [hg] at hf
      cases hf
  · obtain ⟨err, he, -⟩ := x.allocate_of_no_room hr a e count alignment hroom
    rw [he]
    rfl

/-- What was granted is found under the new number. -/
theorem allocate_of_granted (hr : x.state = .ready) {a : Ambient} {e : Element} {count alignment : Nat}
    {space : MemoryClass} (hroom : x.memory.HasRoom (count * e.bytes) space) {block : Block}
    (hg : grant a.grants e count alignment = .ok block) :
    ∃ g, (x.allocate a e count space alignment).result = .ok g ∧ g.length = count ∧ g.space = space ∧
      (x.allocate a e count space alignment).executor.memory.live.find? g.id =
        some ⟨block, space, e, count⟩ ∧
      ∀ n ≤ count, (x.allocate a e count space alignment).executor.memory.view g.id e n =
        .ok (List.replicate n 0) := by
  have hfind := x.memory.find?_enlist ⟨block, space, e, count⟩ x.memory.nextId
  rw [if_pos rfl] at hfind
  rw [x.allocate_of_grant hr a e count alignment hroom, hg]
  refine ⟨_, rfl, rfl, rfl, hfind, fun n hn => ?_⟩
  unfold Memory.view Memory.find
  simp only [hfind]
  exact Allocation.view_of_block ((zeroed_of_grant hg).view_eq n hn) hn space

end Executor

end Accelerator

/-! ## both sides -/

/-- **Allocation rules agree on host and device.**  Given the same answers of the allocator, the host and a
ready device refuse the same requests with the same words, as long as a limit leaves room for device-exclusive
memory; else valid requests are refused for that.  What is refused changes nothing on either side.  What is
granted is the same block: so many zero elements at the raised alignment, which can be seen at every length up
to the full one. -/
theorem allocations_agree (a : Ambient) (e : Element) (count alignment : Nat) (h : Host.Heap) (manager : Nat)
    {x : Accelerator.Executor} (hr : x.state = .ready) (space : MemoryClass) :
    (∀ err, (h.allocate a manager e count alignment).result = .error err ↔
      Refused a.grants e count alignment err) ∧
    (x.memory.HasRoom (count * e.bytes) space →
      ∀ f, (x.allocate a e count space alignment).result = .error f ↔
        ∃ err, f = .error err ∧ Refused a.grants e count alignment err) ∧
    (¬ x.memory.HasRoom (count * e.bytes) space →
      ∃ err, (x.allocate a e count space alignment).result = .error (.error err) ∧
        (Invalid e count alignment err ∨ Valid e count alignment ∧ space = .deviceExclusive ∧
          ∃ limit, x.memory.limit = some limit ∧ err = .allocationFailed (count * e.bytes)
            (Accelerator.Memory.limitText (limit - x.memory.deviceBytes) limit))) ∧
    (∀ err, (h.allocate a manager e count alignment).result = .error err →
      (h.allocate a manager e count alignment).heap = h) ∧
    (∀ f, (x.allocate a e count space alignment).result = .error f →
      (x.allocate a e count space alignment).executor = x) ∧
    ∀ b, (h.allocate a manager e count alignment).result = .ok b →
      b ∈ (h.allocate a manager e count alignment).heap.buffers ∧ b.element = e ∧ b.length = count ∧
      Zeroed e count alignment b.block ∧
      (x.memory.HasRoom (count * e.bytes) space →
        ∃ g, (x.allocate a e count space alignment).result = .ok g ∧ g.length = count ∧ g.space = space ∧
          (x.allocate a e count space alignment).executor.memory.live.find? g.id =
            some ⟨b.block, space, e, count⟩ ∧
          ∀ n ≤ count, (x.allocate a e count space alignment).executor.memory.view g.id e n =
            .ok (List.replicate n 0)) := by
  refine ⟨fun _ => Host.Heap.allocate_eq_error_iff, fun hroom _ => ?_, fun hroom => ?_,
    fun _ => Host.Heap.heap_of_allocate_error, fun _ hf => x.executor_of_allocate_error hr hf, fun b hb => ?_⟩
  · exact x.allocate_eq_error_iff hr a hroom
  · obtain ⟨err, he, hwhy⟩ := x.allocate_of_no_room hr a e count alignment hroom
    exact ⟨err, by rw [he]; rfl, hwhy⟩
  · obtain ⟨hg, he, hl, hmem⟩ := Host.Heap.allocate_eq_ok hb
    exact ⟨hmem, he, hl, zeroed_of_grant hg, fun hroom => x.allocate_of_granted hr hroom hg⟩

/-- an executor of a device with room for sixteen device-exclusive bytes -/
def small : Accelerator.Executor :=
  ((Accelerator.Executor.start 1 { Accelerator.Setup.standard with limit := some 16 }).toOption.get rfl).1

/-- Three words fit in there, and no alignment is three. -/
theorem allocations_agree_small : small.state = .ready ∧
    small.memory.HasRoom (3 * Element.u32.bytes) .deviceExclusive ∧
    (∃ b g, (Host.Heap.empty.allocate .plain 1 .u32 3 64).result = .ok b ∧ b.block.alignment = 64 ∧
      (small.allocate .plain .u32 3 .deviceExclusive 64).result = .ok g ∧
      (small.allocate .plain .u32 3 .deviceExclusive 64).executor.memory.view g.id .u32 3 = .ok [0, 0, 0]) ∧
    (small.allocate .plain .u32 3 .deviceExclusive 3).result = .error (.error (.invalidAlignment 3)) := by
  have hr : small.state = .ready := rfl
  have hroom : small.memory.HasRoom (3 * Element.u32.bytes) .deviceExclusive := by
    intro limit _ hl
    cases hl
    decide
  refine ⟨hr, hroom, ?_, ?_⟩
  · obtain ⟨-, -, -, -, -, hok⟩ := allocations_agree .plain .u32 3 64 .empty 1 hr .deviceExclusive
    obtain ⟨-, -, -, hz, hdevice⟩ := hok _ rfl
    obtain ⟨g, hg, -, -, -, hview⟩ := hdevice hroom
    exact ⟨_, g, rfl, hz.alignment_eq, hg, hview 3 (Nat.le_refl 3)⟩
  · obtain ⟨-, hdevice, -⟩ := allocations_agree .plain .u32 3 3 .empty 1 hr .deviceExclusive
    refine (hdevice hroom _).mpr ⟨_, rfl, .invalid (.misaligned ?_)⟩
    exact not_aligned_iff.mpr ⟨by decide, by decide⟩

end Offload
