import Offload.Proofs.Accelerator.World

/-!
# Device memory as a store

Seen through its handles, the memory of an executor is a store: every handle stands for a list of
elements.  Bytes, blocks, alignments and classes do not show.

* `Store`, `Executor.store`   lists under handles, and those that an executor has;
* `Store.copy`                a copy between lists;
* `Executor.InOrder`          an executor that is ready and serves its handles, as every ready one does
                              that can be reached (`Reachable.inOrder`);
* `Reply.Leaves`              a call that leaves a store, and the counters as they were;
* `InOrder.copy`              a copy does to the store what it does to lists, whichever its ends are;
* `InOrder.relay`             so what goes from handle to handle comes out as it went in;
* `InOrder.load`, `InOrder.copy_whole`  buffers that are filled from the host, and read back;
* `memory_refines_store`      the same for everything that reads or writes memory but kernels.
-/

namespace Offload.Accelerator

/-! ## stores -/

/-- what every handle stands for -/
abbrev Store : Type := (t : AnyHandle) → List (Lane t.element)

namespace Store

variable {e : Element}

/-- the elements that a copy can read -/
def source (s : Store) : Source e → List (Lane e)
  | .host xs => xs
  | .device h => s ⟨e, h⟩

/-- The first elements come from the source, the others stay. -/
def copy (s : Store) (count : Nat) (src : Source e) : Target e → Target e × Store
  | .host d => (.host ((s.source src).take count ++ d.drop count), s)
  | .device d =>
    (.device d, Function.update s ⟨e, d⟩ ((s.source src).take count ++ (s ⟨e, d⟩).drop count))

theorem copy_zero (s : Store) (src : Source e) (dst : Target e) : s.copy 0 src dst = (dst, s) := by
  cases dst with
  | host d => rfl
  | device d => exact congrArg (Prod.mk _) (Function.update_eq_self ..)

end Store

/-- an end on the host, or one of the handles -/
def Target.Among {e : Element} (H : List AnyHandle) : Target e → Prop
  | .host _ => True
  | .device h => ⟨e, h⟩ ∈ H

def Source.Among {e : Element} (H : List AnyHandle) : Source e → Prop
  | .host _ => True
  | .device h => ⟨e, h⟩ ∈ H

/-- as many allocations and bytes, and the same number next -/
structure Memory.SameCounters (m n : Memory) : Prop where
  nextId_eq : n.nextId = m.nextId
  count_eq : n.count = m.count
  bytesOf_eq : ∀ space, n.bytesOf space = m.bytesOf space

theorem Memory.Rewrites.sameCounters {m n : Memory} (h : m.Rewrites n) : m.SameCounters n where
  nextId_eq := h.nextId_eq
  count_eq := by
    show n.live.size = m.live.size
    rw [Registry.size_eq_total, Registry.size_eq_total, h.total_eq fun _ _ _ => rfl]
  bytesOf_eq space := by
    cases h with
    | same => rfl
    | entry _ _ => cases space <;> rfl

/-- elements for a buffer -/
structure Load where
  target : AnyHandle
  contents : List (Lane target.element)

namespace Executor

/-- what the handles of an executor stand for -/
def store (x : Executor) : Store := fun t => x.memory.contents t.handle

/-- An executor that is ready and serves its handles. -/
structure InOrder (x : Executor) (l : Ledger) : Prop where
  ready : x.state = .ready
  sound : x.Sound
  ledger : l.Sound
  serves : x.Serves l

end Executor

/-- The call leaves the executor ready, with these lists under the handles, and the counters as they
were. -/
structure Reply.Leaves {α : Type} (r : Reply α) (x : Executor) (H : List AnyHandle) (s : Store) :
    Prop where
  ready : r.executor.state = .ready
  store : ∀ t ∈ H, r.executor.store t = s t
  counters : x.memory.SameCounters r.executor.memory

namespace Executor

variable {α : Type} {e : Element} {x : Executor} {l : Ledger} {t : AnyHandle} {count : Nat}

theorem source_memory (x : Executor) (src : Source e) : x.memory.source src = x.store.source src := by
  cases src <;> rfl

namespace InOrder

variable (h : x.InOrder l)
include h

/-! ## held handles -/

theorem issued (ht : t ∈ l.heldBy x.id) : t ∈ l.issued :=
  h.ledger.issued_of_held (Ledger.mem_heldBy.mp ht).1

theorem knows (ht : t ∈ l.heldBy x.id) : x.Knows t.handle := h.serves.knows h.ledger (h.issued ht)

theorem checkLive (ht : t ∈ l.heldBy x.id) : x.checkLive t.handle = .ok () :=
  checkLive_eq_ok_iff.mpr ⟨(Ledger.mem_heldBy.mp ht).2, h.serves.live t ht⟩

theorem holds (ht : t ∈ l.heldBy x.id) : ∃ a, x.memory.Holds t.handle a :=
  h.sound.holds (h.knows ht) (h.checkLive ht)

theorem id_ne {s : AnyHandle} (hs : s ∈ l.heldBy x.id) (ht : t ∈ l.heldBy x.id) (hne : s ≠ t) :
    s.id ≠ t.id := fun hid =>
  hne (h.ledger.once (h.issued hs) (h.issued ht)
    ((Ledger.mem_heldBy.mp hs).2.trans (Ledger.mem_heldBy.mp ht).2.symm) hid)

theorem length_store (ht : t ∈ l.heldBy x.id) : (x.store t).length = t.handle.length := by
  obtain ⟨a, ha⟩ := h.holds ht
  exact ha.length_contents

/-- What is written under a handle shows there and nowhere else. -/
theorem store_restore {d : Handle e} (hd : (⟨e, d⟩ : AnyHandle) ∈ l.heldBy x.id) {b : Allocation}
    (hb : x.memory.Holds d b) {xs : List (Lane e)} (hn : xs.length ≤ d.length)
    (ht : t ∈ l.heldBy x.id) :
    (x.memory.restore d.id (b.store xs)).contents t.handle =
      Function.update x.store ⟨e, d⟩ (xs ++ (x.store ⟨e, d⟩).drop xs.length) t := by
  by_cases htd : t = ⟨e, d⟩
  · subst htd
    rw [Function.update_self]
    exact hb.contents_store hn
  · rw [Function.update_of_ne htd]
    exact x.memory.contents_restore _ (h.id_ne ht hd htd)

/-! ## copies -/

section
variable {dst : Target e} {src : Source e} (hd : dst.Among (l.heldBy x.id))
  (hs : src.Among (l.heldBy x.id))

include hd in
theorem knows_target (g : Handle e) (hg : dst = .device g) : x.Knows g := by
  subst hg
  exact h.knows hd

include hs in
theorem knows_source (g : Handle e) (hg : src = .device g) : x.Knows g := by
  subst hg
  exact h.knows hs

include hs in
theorem length_take_source (hn : count ≤ src.length) :
    ((x.store.source src).take count).length = count := by
  have hsrc : (x.store.source src).length = src.length := by
    cases src with
    | host s => rfl
    | device s => exact h.length_store hs
  rw [List.length_take, hsrc]
  exact Nat.min_eq_left hn

include hd hs

theorem checkCopy_eq (count : Nat) : x.checkCopy dst src count =
    if min dst.length src.length < count then
      .error (.bufferOutOfBounds count (min dst.length src.length))
    else .ok () := by
  have htarget : x.checkTarget dst = .ok () := by
    cases dst with
    | host d => rfl
    | device d => exact h.checkLive hd
  have hsource : x.checkSource src = .ok () := by
    cases src with
    | host s => rfl
    | device s => exact h.checkLive hs
  unfold checkCopy
  rw [checkReady_of_ready h.ready, htarget, hsource]

theorem copy_out_of_bounds (a : Ambient) (hn : min dst.length src.length < count) :
    x.copy a dst src count =
      (dst, x.refuse (.bufferOutOfBounds count (min dst.length src.length))) :=
  copy_of_error a (by rw [h.checkCopy_eq hd hs, if_pos hn])

/-- A copy does to the store what it does to lists. -/
theorem copy (a : Ambient) (hn : count ≤ min dst.length src.length) :
    (x.copy a dst src count).2.result = .ok () ∧
    (x.copy a dst src count).1 = (x.store.copy count src dst).1 ∧
    (x.copy a dst src count).2.Leaves x (l.heldBy x.id) (x.store.copy count src dst).2 := by
  have hc : x.checkCopy dst src count = .ok () := by
    rw [h.checkCopy_eq hd hs, if_neg (Nat.not_lt.mpr hn)]
  rcases Nat.eq_zero_or_pos count with rfl | hpos
  · rw [copy_zero a hc, Store.copy_zero]
    exact ⟨rfl, rfl, h.ready, fun _ _ => rfl, Memory.Rewrites.same.sameCounters⟩
  · rw [copy_of_pos a hc hpos]
    obtain ⟨m, hmoves, hmove⟩ :=
      h.sound.move_moves h.ready a (h.knows_target hd) (h.knows_source hs) hc
    have hlen := h.length_take_source hs (Nat.le_trans hn (Nat.min_le_right ..))
    rw [source_memory] at hmoves
    rw [hmove]
    -- the target decides where the elements go, the source does not show any more
    generalize (x.move a count dst src).1 = dst' at hmoves
    cases hmoves with
    | host d =>
      have hput : Slice.put d 0 ((x.store.source src).take count) =
          (x.store.source src).take count ++ d.drop count := by
        have hle : ((x.store.source src).take count).length ≤ d.length := by
          rw [hlen]
          exact Nat.le_trans hn (Nat.min_le_left ..)
        rw [Slice.put_zero_eq_append hle, hlen]
      exact ⟨rfl, congrArg Target.host hput, h.ready, fun _ _ => rfl, Memory.Rewrites.same.sameCounters⟩
    | @device d b hb =>
      have hle : ((x.store.source src).take count).length ≤ d.length := by
        rw [hlen]
        exact Nat.le_trans hn (Nat.min_le_left ..)
      refine ⟨rfl, rfl, h.ready, fun t ht => ?_,
        (Memory.Rewrites.entry hb.find (b.shape_store _)).sameCounters⟩
      have hstore := h.store_restore hd hb hle ht
      rw [hlen] at hstore
      exact hstore

end

/-- An executor that a call leaves ready is in order again, with what the call enters. -/
theorem perform (a : Ambient) {c : Call} (hi : ∀ t ∈ c.handles, t ∈ l.issued)
    (hr : (x.perform a c).executor.state = .ready) :
    (x.perform a c).executor.InOrder (l.enter x.id c (x.perform a c).result) ∧
      (x.perform a c).executor.id = x.id := by
  have heffect := h.sound.perform_effect a c
  exact ⟨⟨hr, heffect.sound h.sound, heffect.enter_sound h.ledger h.serves,
    heffect.serves h.sound h.ledger h.serves hi⟩, heffect.id_eq⟩

omit h in
theorem mem_handles_copy {H : List AnyHandle} {dst : Target e} {src : Source e} (hd : dst.Among H)
    (hs : src.Among H) : ∀ t ∈ (Call.copy e dst src count).handles, t ∈ H := by
  intro t ht
  rcases List.mem_append.mp ht with ht | ht
  · cases dst with
    | host d => cases ht
    | device d => exact (List.mem_singleton.mp ht) ▸ hd
  · cases src with
    | host s => cases ht
    | device s => exact (List.mem_singleton.mp ht) ▸ hs

theorem copy_inOrder {dst : Target e} {src : Source e} (hd : dst.Among (l.heldBy x.id))
    (hs : src.Among (l.heldBy x.id)) (a : Ambient) (hn : count ≤ min dst.length src.length) :
    (x.copy a dst src count).2.executor.InOrder l ∧ (x.copy a dst src count).2.executor.id = x.id := by
  obtain ⟨-, -, hleaves⟩ := h.copy hd hs a hn
  have hi : ∀ t ∈ (Call.copy e dst src count).handles, t ∈ l.issued :=
    fun t ht => h.issued (mem_handles_copy hd hs t ht)
  exact h.perform a hi hleaves.ready

theorem copy_self {g : Handle e} (hg : (⟨e, g⟩ : AnyHandle) ∈ l.heldBy x.id) (a : Ambient)
    (count : Nat) : (x.copy a (.device g) (.device g) count).2.executor.memory = x.memory := by
  have hd : (Target.device g).Among (l.heldBy x.id) := hg
  have hs : (Source.device g).Among (l.heldBy x.id) := hg
  by_cases hn : count ≤ min (Target.device g).length (Source.device g).length
  · have hc : x.checkCopy (.device g) (.device g) count = .ok () := by
      rw [h.checkCopy_eq hd hs, if_neg (Nat.not_lt.mpr hn)]
    rcases Nat.eq_zero_or_pos count with rfl | hpos
    · rw [copy_zero a hc]
    · obtain ⟨m, hmoves, hmove⟩ :=
        h.sound.move_moves h.ready a (h.knows_target hd) (h.knows_source hs) hc
      rw [copy_of_pos a hc hpos, hmove]
      generalize (x.move a count (.device g) (.device g)).1 = dst' at hmoves
      cases hmoves with
      | @device _ b hb =>
        have hle : count ≤ g.length := Nat.le_trans hn (Nat.min_le_left ..)
        show x.memory.restore g.id (b.store ((x.memory.contents g).take count)) = x.memory
        rw [hb.take_contents hle, hb.restore_front hle]
  · rw [h.copy_out_of_bounds hd hs a (Nat.not_le.mp hn)]
    rfl

/-! ## fresh and host-visible memory -/

/-- A fresh allocation reads as zero, and the others as before. -/
theorem allocate (a : Ambient) {space : MemoryClass} {alignment : Nat} {g : Handle e}
    (hg : (x.allocate a e count space alignment).result = .ok g) :
    g.length = count ∧ g.space = space ∧
    (x.allocate a e count space alignment).executor.store ⟨e, g⟩ = List.replicate count 0 ∧
    ∀ t ∈ l.heldBy x.id, (x.allocate a e count space alignment).executor.store t = x.store t := by
  rcases allocate_cases h.ready a e count space alignment with ⟨err, -, hr⟩ | ⟨actual, hs, -, hr⟩
  · rw [hr] at hg
    cases hg
  · rw [hr] at hg
    cases hg
    rw [hr]
    refine ⟨rfl, rfl, ?_, fun t ht => Memory.contents_congr ?_⟩
    · show Memory.contents _ _ = _
      unfold Memory.contents
      rw [Memory.find?_enlist, if_pos rfl]
      exact Offload.Memory.decode_replicate _ _ (Nat.le_refl _)
    · have hne : t.id ≠ x.memory.nextId :=
        Nat.ne_of_lt (h.serves.numbered t (Ledger.mem_issuedBy.mpr
          ⟨h.issued ht, (Ledger.mem_heldBy.mp ht).2⟩))
      exact (Memory.find?_enlist ..).trans (if_neg hne)

section
variable {g : Handle e} (hg : (⟨e, g⟩ : AnyHandle) ∈ l.heldBy x.id) (hv : g.space = .hostVisible)
include hg hv

theorem checkVisible : x.checkVisible g = .ok () := by
  unfold Executor.checkVisible
  rw [h.checkLive (t := ⟨e, g⟩) hg]
  exact if_pos hv

theorem readVisible : x.readVisible g = ⟨x, .ok (x.store ⟨e, g⟩), []⟩ := by
  obtain ⟨b, hb⟩ := h.holds hg
  unfold Executor.readVisible
  rw [checkReady_of_ready h.ready, h.checkVisible hg hv]
  exact congrArg (Reply.mk x · []) ((hb.view (Nat.le_refl _)).trans (congrArg _ hb.contents.symm))

/-- What is written in place is what the handle stands for afterwards. -/
theorem updateVisible {change : List (Lane e) → List (Lane e) × Outcome α}
    (hn : (change (x.store ⟨e, g⟩)).1.length = g.length) :
    (x.updateVisible g change).result = (change (x.store ⟨e, g⟩)).2 ∧
    (x.updateVisible g change).Leaves x (l.heldBy x.id)
      (Function.update x.store ⟨e, g⟩ (change (x.store ⟨e, g⟩)).1) := by
  obtain ⟨b, hb⟩ := h.holds hg
  have hread : x.store ⟨e, g⟩ = b.front e g.length := hb.contents
  have hall : ((change (x.store ⟨e, g⟩)).1 ++ (x.store ⟨e, g⟩).drop (change (x.store ⟨e, g⟩)).1.length) =
      (change (x.store ⟨e, g⟩)).1 := by
    rw [hn, List.drop_of_length_le (Nat.le_of_eq (h.length_store hg)), List.append_nil]
  have hupdate : x.updateVisible g change =
      ⟨{ x with memory := x.memory.restore g.id (b.store (change (x.store ⟨e, g⟩)).1) },
        (change (x.store ⟨e, g⟩)).2, []⟩ := by
    unfold Executor.updateVisible Memory.find
    rw [checkReady_of_ready h.ready, h.checkVisible hg hv]
    simp only [hb.find, hb.allocation_view (Nat.le_refl _), ← hread]
    rw [Slice.put_of_length_eq ((h.length_store hg).trans hn.symm)]
  rw [hupdate]
  refine ⟨rfl, h.ready, fun t ht => ?_, (Memory.Rewrites.entry hb.find (b.shape_store _)).sameCounters⟩
  have hstore := h.store_restore hg hb (Nat.le_of_eq hn) ht
  rw [hall] at hstore
  exact hstore

end

end InOrder

/-! ## chains of copies -/

/-- Copies so many elements from handle to handle; the executor afterwards and the end of the chain. -/
def relay (x : Executor) (count : Nat) (src : Source e) :
    List (Ambient × Handle e) → Option (Executor × Source e)
  | [] => some (x, src)
  | (a, h) :: hops =>
    let reply := (x.copy a (.device h) src count).2
    match reply.result with
    | .error _ => none
    | .ok () => reply.executor.relay count (.device h) hops

/-- The end of a chain starts with what its beginning starts with. -/
theorem InOrder.relay (h : x.InOrder l) {src : Source e} (hs : src.Among (l.heldBy x.id))
    (hn : count ≤ src.length) {hops : List (Ambient × Handle e)}
    (hh : ∀ p ∈ hops, (⟨e, p.2⟩ : AnyHandle) ∈ l.heldBy x.id ∧ count ≤ p.2.length) :
    ∃ y last, x.relay count src hops = some (y, last) ∧ y.InOrder l ∧ y.id = x.id ∧
      last.Among (l.heldBy x.id) ∧ count ≤ last.length ∧
      (y.store.source last).take count = (x.store.source src).take count := by
  induction hops generalizing x src with
  | nil => exact ⟨x, src, rfl, h, rfl, hs, hn, rfl⟩
  | cons p hops ih =>
    obtain ⟨a, g⟩ := p
    obtain ⟨hg, hgn⟩ := hh _ List.mem_cons_self
    have hmin : count ≤ min (Target.device g).length src.length := Nat.le_min.mpr ⟨hgn, hn⟩
    have hd : (Target.device g).Among (l.heldBy x.id) := hg
    obtain ⟨hres, -, hleaves⟩ := h.copy hd hs a hmin
    obtain ⟨hy, hid⟩ := h.copy_inOrder hd hs a hmin
    have hrest : ∀ q ∈ hops, (⟨e, q.2⟩ : AnyHandle) ∈ l.heldBy x.id ∧ count ≤ q.2.length :=
      fun q hq => hh q (List.mem_cons_of_mem _ hq)
    rw [← hid] at hg hrest
    have hnext : (Source.device g).Among (l.heldBy (x.copy a (.device g) src count).2.executor.id) := hg
    obtain ⟨y, last, hrun, hyo, hyid, hlast, hlen, htake⟩ := ih hy hnext hgn hrest
    rw [hid] at hlast
    refine ⟨y, last, ?_, hyo, hyid.trans hid, hlast, hlen, htake.trans ?_⟩
    · rw [Executor.relay]
      simp only [hres]
      exact hrun
    · have hstore : (x.copy a (.device g) src count).2.executor.store ⟨e, g⟩ =
          (x.store.source src).take count ++ (x.store ⟨e, g⟩).drop count :=
        (hleaves.store _ (hid ▸ hg)).trans (Function.update_self ..)
      have hlen := h.length_take_source hs hn
      show ((x.copy a (.device g) src count).2.executor.store ⟨e, g⟩).take count = _
      rw [hstore, List.take_append_of_le_length (Nat.le_of_eq hlen.symm), List.take_take, Nat.min_self]

/-! ## loading and reading back -/

/-- Fills buffers from the host, one after the other. -/
def load (x : Executor) (a : Ambient) : List Load → Option Executor
  | [] => some x
  | p :: ps =>
    let reply := (x.copy a (.device p.target.handle) (.host p.contents) p.contents.length).2
    match reply.result with
    | .error _ => none
    | .ok () => reply.executor.load a ps

/-- Buffers that are loaded hold what they were loaded with, and the others what they held. -/
theorem InOrder.load (h : x.InOrder l) (a : Ambient) {ps : List Load}
    (hp : ∀ p ∈ ps, p.target ∈ l.heldBy x.id ∧ p.contents.length = p.target.handle.length)
    (hd : (ps.map Load.target).Nodup) :
    ∃ y, x.load a ps = some y ∧ y.InOrder l ∧ y.id = x.id ∧ (∀ p ∈ ps, y.store p.target = p.contents) ∧
      ∀ t ∈ l.heldBy x.id, t ∉ ps.map Load.target → y.store t = x.store t := by
  induction ps generalizing x with
  | nil => exact ⟨x, rfl, h, rfl, fun _ hm => (nomatch hm), fun _ _ _ => rfl⟩
  | cons p ps ih =>
    obtain ⟨hmem, hlen⟩ := hp p List.mem_cons_self
    obtain ⟨hnew, hd⟩ := List.nodup_cons.mp hd
    have htarget : (Target.device p.target.handle).Among (l.heldBy x.id) := hmem
    have hsource : (Source.host p.contents).Among (l.heldBy x.id) := trivial
    have hn : p.contents.length ≤ min (Target.device p.target.handle).length (Source.host p.contents).length :=
      Nat.le_min.mpr ⟨Nat.le_of_eq hlen, Nat.le_refl _⟩
    obtain ⟨hres, -, hleaves⟩ := h.copy htarget hsource a hn
    obtain ⟨hy, hid⟩ := h.copy_inOrder htarget hsource a hn
    obtain ⟨y, hload, hyo, hyid, hall, hothers⟩ :=
      ih hy (fun q hq => hid ▸ hp q (List.mem_cons_of_mem _ hq)) hd
    rw [hid] at hothers
    refine ⟨y, ?_, hyo, hyid.trans hid, ?_, fun t ht hnot => ?_⟩
    · rw [Executor.load]
      simp only [hres]
      exact hload
    · -- what is loaded later goes to other buffers
      have hfull : (x.copy a (.device p.target.handle) (.host p.contents) p.contents.length).2.executor.store
          p.target = p.contents := by
        refine (hleaves.store _ hmem).trans ((Function.update_self ..).trans ?_)
        show p.contents.take p.contents.length ++ (x.store p.target).drop p.contents.length = _
        rw [List.take_length, List.drop_of_length_le, List.append_nil]
        exact Nat.le_of_eq ((h.length_store hmem).trans hlen.symm)
      rw [List.forall_mem_cons]
      exact ⟨(hothers _ hmem hnew).trans hfull, hall⟩
    · rw [List.map_cons, List.mem_cons, not_or] at hnot
      refine (hothers t ht hnot.2).trans ((hleaves.store t ht).trans ?_)
      exact Function.update_of_ne hnot.1 ..

theorem InOrder.copy_whole (h : x.InOrder l) (a : Ambient) {g : Handle e}
    (hg : (⟨e, g⟩ : AnyHandle) ∈ l.heldBy x.id) {target : List (Lane e)} (ht : target.length = g.length) :
    (x.copy a (.host target) (.device g) g.length).2.result = .ok () ∧
      (x.copy a (.host target) (.device g) g.length).1 = .host (x.store ⟨e, g⟩) := by
  have htarget : (Target.host target).Among (l.heldBy x.id) := trivial
  have hsource : (Source.device g).Among (l.heldBy x.id) := hg
  have hn : g.length ≤ min (Target.host target).length (Source.device g).length :=
    Nat.le_min.mpr ⟨Nat.le_of_eq ht.symm, Nat.le_refl _⟩
  obtain ⟨hres, hdst, -⟩ := h.copy htarget hsource a hn
  refine ⟨hres, hdst.trans ?_⟩
  show Target.host ((x.store ⟨e, g⟩).take g.length ++ target.drop g.length) = _
  rw [List.take_of_length_le (Nat.le_of_eq (h.length_store hg)),
    List.drop_of_length_le (Nat.le_of_eq ht), List.append_nil]

end Executor

namespace World

variable {w : World}

/-- Every ready executor that can be reached is in order. -/
theorem Reachable.inOrder (hw : w.Reachable) {i : Nat} {x : Executor} (hx : w.fleet.find? i = some x)
    (hr : x.state = .ready) : x.InOrder w.ledger ∧ x.id = i := by
  obtain ⟨hid, -, hxs, hserves⟩ := hw.sound.executors hx
  exact ⟨⟨hr, hxs, hw.sound.ledger, hserves⟩, hid⟩

/-- **Device memory is a store.**  Every held handle stands for a list of elements.  A copy between any two
ends is refused if it asks for more than one of them has; otherwise it does what a copy of lists does,
onto itself nothing at all.  A fresh allocation reads as zero, and host-visible memory is read and
replaced as the list that it is.  So what a chain of copies takes from the host through any buffers comes
back to the host as it was. -/
theorem memory_refines_store (hw : w.Reachable) {i : Nat} {x : Executor}
    (hx : w.fleet.find? i = some x) (hr : x.state = .ready) (a : Ambient) (e : Element) :
    (∀ t ∈ w.ledger.heldBy i, (x.store t).length = t.handle.length) ∧
    (∀ (dst : Target e) (src : Source e) count, dst.Among (w.ledger.heldBy i) →
      src.Among (w.ledger.heldBy i) →
      (min dst.length src.length < count →
        x.copy a dst src count =
          (dst, x.refuse (.bufferOutOfBounds count (min dst.length src.length)))) ∧
      (count ≤ min dst.length src.length →
        (x.copy a dst src count).2.result = .ok () ∧
        (x.copy a dst src count).1 = (x.store.copy count src dst).1 ∧
        (x.copy a dst src count).2.Leaves x (w.ledger.heldBy i) (x.store.copy count src dst).2)) ∧
    (∀ (h : Handle e) count, ⟨e, h⟩ ∈ w.ledger.heldBy i →
      (x.copy a (.device h) (.device h) count).2.executor.memory = x.memory) ∧
    (∀ count space alignment (h : Handle e), (x.allocate a e count space alignment).result = .ok h →
      h.length = count ∧ h.space = space ∧
      (x.allocate a e count space alignment).executor.store ⟨e, h⟩ = List.replicate count 0 ∧
      ∀ t ∈ w.ledger.heldBy i, (x.allocate a e count space alignment).executor.store t = x.store t) ∧
    (∀ h : Handle e, ⟨e, h⟩ ∈ w.ledger.heldBy i → h.space = .hostVisible →
      x.readVisible h = ⟨x, .ok (x.store ⟨e, h⟩), []⟩ ∧
      ∀ (α : Type) (change : List (Lane e) → List (Lane e) × Outcome α),
        (change (x.store ⟨e, h⟩)).1.length = h.length →
        (x.updateVisible h change).result = (change (x.store ⟨e, h⟩)).2 ∧
        (x.updateVisible h change).Leaves x (w.ledger.heldBy i)
          (Function.update x.store ⟨e, h⟩ (change (x.store ⟨e, h⟩)).1)) ∧
    ∀ count (origin target : List (Lane e)) (hops : List (Ambient × Handle e)),
      count ≤ origin.length → count ≤ target.length →
      (∀ p ∈ hops, (⟨e, p.2⟩ : AnyHandle) ∈ w.ledger.heldBy i ∧ count ≤ p.2.length) →
      ∃ y last, x.relay count (.host origin) hops = some (y, last) ∧
        (y.copy a (.host target) last count).2.result = .ok () ∧
        (y.copy a (.host target) last count).1 =
          .host (origin.take count ++ target.drop count) := by
  obtain ⟨ho, hid⟩ := hw.inOrder hx hr
  subst hid
  refine ⟨fun t ht => ho.length_store ht, fun dst src count hd hs =>
      ⟨ho.copy_out_of_bounds hd hs a, ho.copy hd hs a⟩,
    fun h count hh => ho.copy_self hh a count, fun count space alignment h hres => ho.allocate a hres,
    fun h hh hv => ⟨ho.readVisible hh hv, fun α change hn => ho.updateVisible hh hv hn⟩, ?_⟩
  intro count origin target hops hno hnt hh
  have horigin : (Source.host origin).Among (w.ledger.heldBy x.id) := trivial
  obtain ⟨y, last, hrun, hy, hyid, hlast, hlen, htake⟩ := ho.relay horigin hno hh
  rw [← hyid] at hlast
  have htarget : (Target.host target).Among (w.ledger.heldBy y.id) := trivial
  obtain ⟨hres, hdst, -⟩ := hy.copy htarget hlast a (Nat.le_min.mpr ⟨hnt, hlen⟩)
  refine ⟨y, last, hrun, hres, hdst.trans ?_⟩
  show Target.host ((y.store.source last).take count ++ target.drop count) = _
  rw [htake]
  rfl

/-- the small world with a second allocation, which the host can see -/
def pair : World := (sample.run [.call 1 .plain (.allocate .u8 4 .hostVisible 0)]).get rfl

def pairExecutor : Executor := (pair.fleet.find? 1).get rfl

def visibleHandle : Handle .u8 := ⟨2, 4, .hostVisible, 1⟩

theorem reachable_pair : pair.Reachable := reachable_sample.run (Option.some_get _).symm

theorem find?_pair : pair.fleet.find? 1 = some pairExecutor := (Option.some_get _).symm

theorem held_pair : (⟨.u8, sampleHandle⟩ : AnyHandle) ∈ pair.ledger.heldBy 1 ∧
    (⟨.u8, visibleHandle⟩ : AnyHandle) ∈ pair.ledger.heldBy 1 := by decide

/-- Two out of three elements go through both allocations and come back. -/
theorem memory_refines_store_pair :
    pair.Reachable ∧ pair.fleet.find? 1 = some pairExecutor ∧ pairExecutor.state = .ready ∧
      pairExecutor.copy .plain (.host [9]) (.device sampleHandle) 2 =
        (.host [9], pairExecutor.refuse (.bufferOutOfBounds 2 1)) ∧
      pairExecutor.readVisible visibleHandle = ⟨pairExecutor, .ok [0, 0, 0, 0], []⟩ ∧
      ∃ y last, pairExecutor.relay 2 (.host [1, 2, 3])
          [(.plain, sampleHandle), (.plain, visibleHandle)] = some (y, last) ∧
        (y.copy .plain (.host [7, 7, 7]) last 2).1 = .host [1, 2, 7] := by
  obtain ⟨-, hcopy, -, -, hvisible, hchain⟩ :=
    memory_refines_store reachable_pair find?_pair rfl .plain .u8
  obtain ⟨hsample, hvis⟩ := held_pair
  refine ⟨reachable_pair, find?_pair, rfl, ?_, ?_, ?_⟩
  · exact (hcopy (.host [9]) (.device sampleHandle) 2 trivial hsample).1 (by decide)
  · exact (hvisible visibleHandle hvis rfl).1
  · obtain ⟨y, last, hrun, -, hback⟩ := hchain 2 [1, 2, 3] [7, 7, 7]
      [(.plain, sampleHandle), (.plain, visibleHandle)] (by decide) (by decide) (by
        rintro p hp
        simp only [List.mem_cons, List.not_mem_nil, or_false] at hp
        rcases hp with rfl | rfl
        · exact ⟨hsample, by decide⟩
        · exact ⟨hvis, by decide⟩)
    exact ⟨y, last, hrun, hback⟩

end World

end Offload.Accelerator
