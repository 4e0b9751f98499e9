import Offload.Proofs.Accelerator.World

/-!
# Accounting

* `Ledger.bytesHeld`      the bytes that an executor's handles stand for, as long as they are held;
* `Sound.bytes_eq`        the counters of a memory are the sums over what is live;
* `Reply.LimitReached`    refused because the limit leaves no room;
* `allocate_limit_iff`    when that is;
* `accounting`            in every world the counters are the sums over the held handles.
-/

namespace Offload.Accelerator

/-! ## sums -/

/-- the bytes of all handles of a class that an executor issued and that are held -/
def Ledger.bytesHeld (l : Ledger) (owner : Nat) (space : MemoryClass) : Nat :=
  (((l.heldBy owner).filter (·.space = space)).map (·.size)).sum

/-- To count the others as nothing is to leave them out. -/
theorem sum_map_ite_zero {β : Type} (p : β → Prop) [DecidablePred p] (f : β → Nat) (l : List β) :
    (l.map fun b => if p b then f b else 0).sum = ((l.filter p).map f).sum := by
  have hz : ((l.filter (¬ p ·)).map fun _ => 0).sum = 0 := by
    rw [List.map_const', List.sum_replicate, Nat.nsmul_eq_mul, Nat.mul_zero]
  rw [List.sum_map_ite, hz, Nat.add_zero]

namespace Memory

variable {m : Memory} {I H : List AnyHandle}

theorem Sound.bytes_eq (hm : m.Sound) : m.bytes = m.live.total (·.block.size) := by
  have hsize (a : Allocation) : a.sizeIn .deviceExclusive + a.sizeIn .hostVisible = a.block.size := by
    unfold Allocation.sizeIn
    cases a.space <;> simp
  show m.bytesOf .deviceExclusive + m.bytesOf .hostVisible = _
  rw [hm.counted, hm.counted, Registry.total_add]
  exact congrArg m.live.total (funext hsize)

theorem Serves.count_eq (h : m.Serves I H) : m.count = H.length := by
  have hb := h.balanced fun _ _ => 1
  rw [← Registry.size_eq_total] at hb
  rw [Memory.count, hb, List.map_const', List.sum_replicate, Nat.nsmul_eq_mul, Nat.mul_one]

theorem Serves.bytes_eq (h : m.Serves I H) (hm : m.Sound) : m.bytes = (H.map (·.size)).sum :=
  hm.bytes_eq.trans (h.balanced fun _ n => n)

theorem Serves.bytesOf_eq (h : m.Serves I H) (hm : m.Sound) (space : MemoryClass) :
    m.bytesOf space = ((H.filter (·.space = space)).map (·.size)).sum := by
  rw [hm.counted]
  exact (h.balanced fun s n => if s = space then n else 0).trans (sum_map_ite_zero (·.space = space) _ H)

end Memory

/-! ## the limit -/

/-- the error of an allocation for which the limit leaves no room -/
def OutOfRoom (err : Error) : Prop :=
  ∃ size available limit, err = .allocationFailed size (Memory.limitText available limit)

/-- The call is refused because the limit leaves no room. -/
def Reply.LimitReached {α : Type} (r : Reply α) : Prop :=
  ∃ err, r.result = .error (.error err) ∧ OutOfRoom err

/-- All other texts begin with another letter. -/
theorem not_outOfRoom {size : Nat} {text : String} (h : text.toList.head? ≠ some 'd') :
    ¬ OutOfRoom (.allocationFailed size text) := by
  rintro ⟨n, available, limit, he⟩
  cases he
  refine h ?_
  unfold Memory.limitText
  simp only [String.toList_append]
  rfl

theorem not_outOfRoom_zeroed {grants : Allocator} {size alignment : Nat} {err : Error}
    (h : Block.zeroed grants size alignment = .error err) : ¬ OutOfRoom err := by
  unfold Block.zeroed at h
  split at h
  · cases h
    exact fun ⟨_, _, _, he⟩ => (nomatch he)
  · split at h
    · cases h
      exact not_outOfRoom (by decide)
    · split at h
      · cases h
        exact not_outOfRoom (by decide)
      · cases h

/-- A request is good exactly if the alignment is valid and the size is a size. -/
theorem ofElements_cases (e : Element) (count alignment : Nat) :
    ((alignment = 0 ∨ Size.isPower alignment = true) ∧ count * e.bytes < Size.limit ∧
      ∃ r, Offload.Memory.Request.ofElements e count alignment = .ok r ∧ r.size = count * e.bytes) ∨
    (¬ ((alignment = 0 ∨ Size.isPower alignment = true) ∧ count * e.bytes < Size.limit) ∧
      ∃ err, Offload.Memory.Request.ofElements e count alignment = .error err ∧ ¬ OutOfRoom err) := by
  unfold Offload.Memory.Request.ofElements
  by_cases ha : alignment ≠ 0 ∧ Size.isPower alignment = false
  · rw [if_pos ha]
    refine .inr ⟨fun h => ?_, _, rfl, fun ⟨_, _, _, he⟩ => (nomatch he)⟩
    rcases h.1 with h | h
    · exact ha.1 h
    · cases ha.2.symm.trans h
  · rw [if_neg ha]
    by_cases hs : count * e.bytes < Size.limit
    · rw [Size.mul?_eq_some hs]
      refine .inl ⟨?_, hs, _, rfl, rfl⟩
      by_cases hz : alignment = 0
      · exact .inl hz
      · exact .inr (by simpa [hz] using ha)
    · rw [Size.mul?_eq_none (Nat.not_lt.mp hs)]
      exact .inr ⟨fun h => hs h.2, _, rfl, not_outOfRoom (by decide)⟩

namespace Executor

variable {x : Executor}

/-- An allocation is refused for the limit exactly if it is a good request for device-exclusive memory
and more than what the limit leaves. -/
theorem Sound.allocate_limit_iff (hx : x.Sound) (hr : x.state = .ready) (a : Ambient) (e : Element)
    (count : Nat) (space : MemoryClass) (alignment : Nat) :
    (x.allocate a e count space alignment).LimitReached ↔
      (alignment = 0 ∨ Size.isPower alignment = true) ∧ count * e.bytes < Size.limit ∧
        space = .deviceExclusive ∧
        ∃ limit, x.device.limit = some limit ∧ limit - x.memory.deviceBytes < count * e.bytes := by
  unfold allocate
  rw [checkReady_of_ready hr, ← hx.limit_eq]
  rcases ofElements_cases e count alignment with ⟨ha, hs, r, hq, hsize⟩ | ⟨hbad, err, hq, hno⟩
  · simp only [hq]
    unfold Memory.allocate
    rw [← hsize]
    rcases x.memory.checkRoom_cases r.size space with hroom | ⟨limit, hsp, hl, hlt, hroom⟩
    · have hno : ¬ (space = .deviceExclusive ∧
          ∃ limit, x.memory.limit = some limit ∧ limit - x.memory.deviceBytes < r.size) := by
        rintro ⟨hsp, limit, hl, hlt⟩
        exact Nat.not_le.mpr hlt (Memory.checkRoom_eq_ok_iff.mp hroom limit hsp hl)
      rw [hroom]
      -- there is room, so an error is the block's, and its text is another
      refine ⟨fun ⟨err, he, hout⟩ => ?_, fun h => absurd h.2.2 hno⟩
      cases hz : Block.zeroed a.grants r.size r.alignment with
      | error er =>
        simp only [hz] at he
        cases he
        exact absurd hout (not_outOfRoom_zeroed hz)
      | ok block =>
        simp only [hz] at he
        cases he
    · rw [hroom]
      exact ⟨fun _ => ⟨ha, hsize ▸ hs, hsp, limit, hl, hlt⟩, fun _ => ⟨_, rfl, _, _, _, rfl⟩⟩
  · simp only [hq]
    refine ⟨fun ⟨er, he, hout⟩ => ?_, fun h => absurd ⟨h.1, h.2.1⟩ hbad⟩
    cases he
    exact absurd hout hno

/-- What is given back was counted, so nothing underflows. -/
theorem Sound.deallocate_ne_crash (hx : x.Sound) {e : Element} (h : Handle e) (c : Crash) :
    (x.deallocate h).result ≠ .error (.crash c) := by
  cases hc : x.checkReady with
  | error err =>
    have hd : x.deallocate h = x.refuse err := perform_of_checkReady hc .plain (c := .deallocate e h) rfl
    rw [hd]
    exact fun he => (nomatch he)
  | ok u =>
    rcases hx.deallocate_cases (checkReady_eq_ok_iff.mp hc) h with ⟨err, -, hd⟩ | ⟨a, -, -, -, hd⟩
    · rw [hd]
      exact fun he => (nomatch he)
    · rw [hd]
      exact fun he => (nomatch he)

end Executor

/-! ## executors in a world -/

namespace World

variable {w : World} {i : Nat} {x : Executor}

/-- **Accounting.**  Whatever was done before, the counters of an executor are the sums over the handles
that it issued and that were not given back, so nothing underflows when one is; a limit on
device-exclusive memory is kept; and an allocation is refused for it exactly if it is more than what the
held handles leave. -/
theorem accounting (hw : w.Reachable) (hx : w.fleet.find? i = some x) :
    x.memory.count = (w.ledger.heldBy x.id).length ∧
    x.memory.bytes = ((w.ledger.heldBy x.id).map (·.size)).sum ∧
    (∀ space, x.memory.bytesOf space = w.ledger.bytesHeld x.id space) ∧
    (∀ id b, x.memory.live.find? id = some b → b.block.size ≤ x.memory.bytesOf b.space) ∧
    (∀ e (h : Handle e) c, (x.deallocate h).result ≠ .error (.crash c)) ∧
    (∀ limit, x.device.limit = some limit → x.memory.deviceBytes ≤ limit) ∧
    (x.state = .ready → ∀ a e count space alignment,
      (x.allocate a e count space alignment).LimitReached ↔
        (alignment = 0 ∨ Size.isPower alignment = true) ∧ count * e.bytes < Size.limit ∧
          space = .deviceExclusive ∧
          ∃ limit, x.device.limit = some limit ∧
            limit - w.ledger.bytesHeld x.id .deviceExclusive < count * e.bytes) := by
  obtain ⟨-, -, hxs, hserves⟩ := hw.sound.executors hx
  have hbytes := hserves.bytesOf_eq hxs.memory
  refine ⟨hserves.count_eq, hserves.bytes_eq hxs.memory, hbytes, ?_, ?_, ?_, ?_⟩
  · intro id b hb
    have hle := hxs.memory.sizeIn_le hb b.space
    rw [Allocation.sizeIn, if_pos rfl] at hle
    exact hle
  · exact fun e h c => hxs.deallocate_ne_crash h c
  · exact fun limit hl => hxs.memory.limited (hxs.limit_eq.trans hl)
  · intro hr a e count space alignment
    have hd : x.memory.deviceBytes = w.ledger.bytesHeld x.id .deviceExclusive := hbytes .deviceExclusive
    rw [← hd]
    exact hxs.allocate_limit_iff hr a e count space alignment

/-- Four of eight bytes are left, and no more. -/
theorem accounting_sample : sample.Reachable ∧ sample.fleet.find? 1 = some sampleExecutor ∧
    sampleExecutor.state = .ready ∧ sampleExecutor.memory.count = 1 ∧
    (sampleExecutor.allocate .plain .u8 5 .deviceExclusive 0).LimitReached ∧
    ¬ (sampleExecutor.allocate .plain .u8 4 .deviceExclusive 0).LimitReached := by
  obtain ⟨hcount, -, -, -, -, -, hlimit⟩ := accounting reachable_sample find?_sample
  refine ⟨reachable_sample, find?_sample, rfl, hcount.trans rfl, ?_, fun h => ?_⟩
  · exact (hlimit rfl .plain .u8 5 .deviceExclusive 0).mpr
      ⟨.inl rfl, by decide, rfl, 8, rfl, by decide⟩
  · obtain ⟨-, -, -, limit, hl, hlt⟩ := (hlimit rfl .plain .u8 4 .deviceExclusive 0).mp h
    cases hl
    exact absurd hlt (by decide)

end World

end Offload.Accelerator
