import Mathlib
import Offload.Proofs.Memory.Allocation

/-!
# What managers of host memory count

A buffer is counted off by the manager it came from, at the moment when it is dropped, and it knows that
manager itself.  So it does not matter who is asked to take it back, and that a manager refuses it changes
nothing for the counters.

* `World`             a heap with its history: every buffer that was given out, and those that were dropped;
                      `World.step` makes a manager, allocates, gives back to any manager, drops or copies;
* `World.Reachable`   what can come of that, from nothing;
* `World.Effect`      all that one step can do, whatever was asked for (`step_effect`);
* `World.Sound`       the counters say what the history says (`Reachable.sound`);
* `Heap.Freed`        one buffer is gone, and its own manager has counted it off;
* `managers_account`  all of it.
-/

namespace Offload.Host

/-! ## one buffer less, and a copy into a buffer -/

namespace Heap

theorem manager_setManager (h : Heap) (i j : Nat) (m : Manager) :
    (h.setManager i m).manager j = if j = i then m else h.manager j := by
  unfold manager setManager
  dsimp only
  rw [Registry.find?_insert]
  split <;> rfl

/-- A new manager counts from zero, as if it had been there before. -/
theorem manager_addManager {h : Heap} (hn : h.managers.find? h.nextManager = none) (j : Nat) :
    h.addManager.2.manager j = h.manager j := by
  unfold manager addManager
  dsimp only
  rw [Registry.find?_insert]
  split
  · rename_i hj
    rw [hj, hn]
    rfl
  · rfl

theorem manager_release (h : Heap) (b : Buffer) (j : Nat) :
    (h.release b).manager j =
      if j = b.ticket.owner then
        { h.manager b.ticket.owner with
          live := (h.manager b.ticket.owner).live - 1
          bytes := (h.manager b.ticket.owner).bytes - b.size }
      else h.manager j :=
  h.manager_setManager ..

/-- One buffer is gone.  Its own manager counts one buffer less and as many bytes less as it had, and that
is no less than nothing; all other managers are as before. -/
structure Freed (h : Heap) (b : Buffer) (after : Heap) : Prop where
  live : (h.manager b.ticket.owner).live = (after.manager b.ticket.owner).live + 1
  bytes : (h.manager b.ticket.owner).bytes = (after.manager b.ticket.owner).bytes + b.size
  issued : (after.manager b.ticket.owner).issued = (h.manager b.ticket.owner).issued
  others : ∀ i ≠ b.ticket.owner, after.manager i = h.manager i
  buffers : h.buffers.Perm (b :: after.buffers)

end Heap

/-- A copy into a part of a buffer: all of its elements afterwards, and what else comes of the copy. -/
def Buffer.copy (b : Buffer) (a : Ambient) (start length : Nat) (src : List (Lane b.element)) (count : Nat) :
    List (Lane b.element) × Except Error Unit × List Event :=
  let (xs, result, events) := Host.copy a ((b.contents.drop start).take length) src count
  (Slice.put b.contents start xs, result, events)

theorem Buffer.copy_of_lt {b : Buffer} (a : Ambient) {start length count : Nat} {src : List (Lane b.element)}
    (h : min ((b.contents.drop start).take length).length src.length < count) :
    b.copy a start length src count = (b.contents,
      .error (.bufferOutOfBounds count (min ((b.contents.drop start).take length).length src.length)), []) := by
  unfold Buffer.copy Host.copy
  rw [if_pos h]
  dsimp only
  rw [Slice.put_drop_take]

/-! ## worlds -/

/-- a buffer as its manager gave it out -/
structure Receipt where
  ticket : Ticket
  size : Nat
  deriving DecidableEq, Repr

def Buffer.receipt (b : Buffer) : Receipt := ⟨b.ticket, b.size⟩

structure World where
  heap : Heap
  /-- every buffer that was given out, in order -/
  issued : List Receipt
  /-- those that are no more -/
  dropped : List Ticket

/-- one step of a world -/
inductive Action where
  | addManager
  | allocate (manager : Nat) (a : Ambient) (e : Element) (count alignment : Nat)
  | deallocate (manager : Nat) (t : Ticket)
  | drop (t : Ticket)
  | copy (a : Ambient) (dst : Ticket) (start length : Nat) (src : Σ e, List (Lane e)) (count : Nat)

namespace World

variable {w v : World} {b : Buffer} {r : Receipt} {t : Ticket} {i : Nat}

def empty : World := ⟨.empty, [], []⟩

def issuedBy (w : World) (manager : Nat) : List Receipt := w.issued.filter (·.ticket.owner = manager)

/-- given out and not dropped yet -/
def alive (w : World) : List Receipt := w.issued.filter (·.ticket ∉ w.dropped)

def aliveOf (w : World) (manager : Nat) : List Receipt := w.alive.filter (·.ticket.owner = manager)

/-- what a manager should count -/
def tally (w : World) (manager : Nat) : Manager :=
  ⟨(w.aliveOf manager).length, ((w.aliveOf manager).map (·.size)).sum, (w.issuedBy manager).length⟩

/-- A buffer can only be given away as long as it is there, to a manager that is there, and a copy is
between elements of one type. -/
def step (w : World) : Action → Option World
  | .addManager => some { w with heap := w.heap.addManager.2 }
  | .allocate manager a e count alignment =>
    if (w.heap.managers.find? manager).isSome then
      let reply := w.heap.allocate a manager e count alignment
      match reply.result with
      | .error _ => some { w with heap := reply.heap }
      | .ok b => some { w with heap := reply.heap, issued := w.issued ++ [⟨b.ticket, count * e.bytes⟩] }
    else none
  | .deallocate manager t =>
    if (w.heap.managers.find? manager).isSome then
      (w.heap.deallocate manager t).map fun reply => { w with heap := reply.heap, dropped := t :: w.dropped }
    else none
  | .drop t => (w.heap.drop t).map fun heap => { w with heap := heap, dropped := t :: w.dropped }
  | .copy a t start length ⟨e, src⟩ count =>
    match w.heap.find? t with
    | none => none
    | some b =>
      if h : e = b.element then
        some { w with heap := w.heap.store b (b.copy a start length (h ▸ src) count).1 }
      else none

/-- what can come of any steps -/
inductive Reachable : World → Prop
  | empty : Reachable .empty
  | step {w v : World} {a : Action} (before : Reachable w) (step : w.step a = some v) : Reachable v

/-- several steps, one after the other -/
def run (w : World) : List Action → Option World
  | [] => some w
  | a :: as =>
    match w.step a with
    | none => none
    | some v => v.run as

theorem Reachable.run (h : w.Reachable) {as : List Action} (hr : w.run as = some v) : v.Reachable := by
  induction as generalizing w with
  | nil =>
    cases hr
    exact h
  | cons a as ih =>
    rw [World.run] at hr
    cases hs : w.step a with
    | none =>
      rw [hs] at hr
      cases hr
    | some u =>
      rw [hs] at hr
      exact ih (h.step hs) hr

/-! ## what one step can do -/

/-- A new buffer is counted and written down. -/
def enlist (w : World) (b : Buffer) : World :=
  let m := w.heap.manager b.ticket.owner
  let heap := w.heap.setManager b.ticket.owner ⟨m.live + 1, m.bytes + b.size, m.issued + 1⟩
  { w with heap := { heap with buffers := w.heap.buffers ++ [b] }, issued := w.issued ++ [b.receipt] }

/-- A buffer is counted off, and that is written down. -/
def release (w : World) (b : Buffer) : World :=
  { w with heap := w.heap.release b, dropped := b.ticket :: w.dropped }

/-- What is refused or out of bounds does nothing.  Of a buffer that is given back the receiving manager
does not matter. -/
inductive Effect (w : World) : World → Prop
  | none : Effect w w
  | manager : Effect w { w with heap := w.heap.addManager.2 }
  | enlisted {b : Buffer} (known : (w.heap.managers.find? b.ticket.owner).isSome)
      (next : b.ticket.id = (w.heap.manager b.ticket.owner).issued + 1)
      (sized : b.size = b.length * b.element.bytes) : Effect w (w.enlist b)
  | released {b : Buffer} (mem : b ∈ w.heap.buffers) : Effect w (w.release b)
  | stored {b : Buffer} (mem : b ∈ w.heap.buffers) (xs : List (Lane b.element)) :
      Effect w { w with heap := w.heap.store b xs }

theorem ticket_of_find? (h : w.heap.find? t = some b) : b ∈ w.heap.buffers ∧ b.ticket = t :=
  ⟨List.mem_of_find?_eq_some h, by simpa using List.find?_some h⟩

theorem allocate_effect (hm : (w.heap.managers.find? i).isSome) (a : Ambient) (e : Element)
    (count alignment : Nat) (h : w.step (.allocate i a e count alignment) = some v) : w.Effect v := by
  rw [step, if_pos hm, w.heap.allocate_of_grant] at h
  cases hg : Memory.Request.grant a.grants e count alignment with
  | error err =>
    rw [hg] at h
    cases h
    exact .none
  | ok block =>
    rw [hg] at h
    cases h
    have hz := Memory.Request.zeroed_of_grant hg
    let b : Buffer := ⟨⟨i, (w.heap.manager i).issued + 1⟩, e, count, block⟩
    have hb : b.size = count * e.bytes := hz.size_eq
    rw [← hb]
    exact .enlisted (b := b) hm rfl hb

/-- Whatever a step is for, it does one of a few things. -/
theorem step_effect {a : Action} (h : w.step a = some v) : w.Effect v := by
  cases a with
  | addManager =>
    cases h
    exact .manager
  | allocate i a e count alignment =>
    by_cases hm : (w.heap.managers.find? i).isSome
    · exact allocate_effect hm a e count alignment h
    · rw [step, if_neg hm] at h
      cases h
  | deallocate i t =>
    rw [step] at h
    split at h
    · unfold Heap.deallocate at h
      cases hf : w.heap.find? t with
      | none =>
        rw [hf] at h
        cases h
      | some b =>
        obtain ⟨hmem, rfl⟩ := ticket_of_find? hf
        rw [hf] at h
        dsimp only at h
        split at h <;>
        · cases h
          exact .released hmem
    · cases h
  | drop t =>
    rw [step, Heap.drop] at h
    cases hf : w.heap.find? t with
    | none =>
      rw [hf] at h
      cases h
    | some b =>
      obtain ⟨hmem, rfl⟩ := ticket_of_find? hf
      rw [hf] at h
      cases h
      exact .released hmem
  | copy a t start length src count =>
    obtain ⟨e, src⟩ := src
    rw [step] at h
    cases hf : w.heap.find? t with
    | none =>
      rw [hf] at h
      cases h
    | some b =>
      rw [hf] at h
      dsimp only at h
      split at h
      · cases h
        exact .stored (ticket_of_find? hf).1 _
      · cases h

/-! ## what becomes of the history -/

theorem filter_owner_append (l : List Receipt) (r : Receipt) (i : Nat) :
    (l ++ [r]).filter (·.ticket.owner = i) =
      l.filter (·.ticket.owner = i) ++ if i = r.ticket.owner then [r] else [] := by
  rw [List.filter_append, List.filter_singleton]
  by_cases hi : i = r.ticket.owner
  · rw [if_pos hi, decide_eq_true hi.symm]
    rfl
  · rw [if_neg hi, decide_eq_false (Ne.symm hi)]
    rfl

theorem issuedBy_enlist (w : World) (b : Buffer) (i : Nat) :
    (w.enlist b).issuedBy i = w.issuedBy i ++ if i = b.ticket.owner then [b.receipt] else [] :=
  filter_owner_append ..

theorem alive_enlist (hb : b.ticket ∉ w.dropped) : (w.enlist b).alive = w.alive ++ [b.receipt] := by
  show (w.issued ++ [b.receipt]).filter (·.ticket ∉ w.dropped) = _
  have hkeep : decide (b.receipt.ticket ∉ w.dropped) = true := decide_eq_true hb
  rw [List.filter_append, List.filter_singleton, hkeep]
  rfl

theorem aliveOf_enlist (hb : b.ticket ∉ w.dropped) (i : Nat) :
    (w.enlist b).aliveOf i = w.aliveOf i ++ if i = b.ticket.owner then [b.receipt] else [] := by
  unfold aliveOf
  rw [alive_enlist hb, filter_owner_append]
  rfl

theorem alive_release (w : World) (b : Buffer) :
    (w.release b).alive = w.alive.filter (·.ticket ≠ b.ticket) := by
  unfold alive release
  rw [List.filter_filter]
  refine List.filter_congr fun r _ => ?_
  simp [not_or]

theorem manager_enlist (w : World) (b : Buffer) (i : Nat) :
    (w.enlist b).heap.manager i =
      if i = b.ticket.owner then
        let m := w.heap.manager b.ticket.owner
        ⟨m.live + 1, m.bytes + b.size, m.issued + 1⟩
      else w.heap.manager i :=
  w.heap.manager_setManager ..

theorem tally_enlist (hb : b.ticket ∉ w.dropped) (i : Nat) :
    (w.enlist b).tally i =
      if i = b.ticket.owner then
        let m := w.tally b.ticket.owner
        ⟨m.live + 1, m.bytes + b.size, m.issued + 1⟩
      else w.tally i := by
  unfold tally
  rw [aliveOf_enlist hb, issuedBy_enlist]
  by_cases hi : i = b.ticket.owner
  · rw [if_pos hi, if_pos hi, List.length_append, List.map_append, List.sum_append, List.length_append, hi]
    rfl
  · rw [if_neg hi, if_neg hi, List.append_nil, List.append_nil]

/-! ## what the counters say -/

/-- The history says what is there and what the managers count. -/
structure Sound (w : World) : Prop where
  managers : ∀ i, w.heap.nextManager ≤ i → w.heap.managers.find? i = none
  owners : ∀ r ∈ w.issued, r.ticket.owner < w.heap.nextManager
  numbered : ∀ i, (w.issuedBy i).map (·.ticket.id) = List.range' 1 (w.issuedBy i).length
  once : (w.issued.map (·.ticket)).Nodup
  given : ∀ t ∈ w.dropped, t ∈ w.issued.map (·.ticket)
  buffers : w.heap.buffers.map Buffer.receipt = w.alive
  sized : ∀ b ∈ w.heap.buffers, b.size = b.length * b.element.bytes
  counted : ∀ i, w.heap.manager i = w.tally i

theorem sound_empty : empty.Sound where
  managers _ _ := rfl
  owners _ h := nomatch h
  numbered _ := rfl
  once := List.nodup_nil
  given _ h := nomatch h
  buffers := rfl
  sized _ h := nomatch h
  counted _ := rfl

namespace Sound

theorem mem_issued (h : w.Sound) (hb : b ∈ w.heap.buffers) : b.receipt ∈ w.alive ∧ b.receipt ∈ w.issued := by
  have halive : b.receipt ∈ w.alive := h.buffers ▸ List.mem_map_of_mem hb
  exact ⟨halive, List.mem_of_mem_filter halive⟩

/-- No two buffers have the same ticket. -/
theorem nodup_tickets (h : w.Sound) : (w.heap.buffers.map (·.ticket)).Nodup := by
  have hmap : w.heap.buffers.map (·.ticket) = w.alive.map (·.ticket) := by
    rw [← h.buffers, List.map_map]
    rfl
  rw [hmap]
  exact h.once.sublist (List.filter_sublist.map _)

theorem eq_of_ticket (h : w.Sound) {c : Buffer} (hb : b ∈ w.heap.buffers) (hc : c ∈ w.heap.buffers)
    (ht : c.ticket = b.ticket) : c = b :=
  List.inj_on_of_nodup_map h.nodup_tickets hc hb ht

theorem find?_of_mem (h : w.Sound) (hb : b ∈ w.heap.buffers) : w.heap.find? b.ticket = some b := by
  cases hf : w.heap.find? b.ticket with
  | none => exact absurd rfl (of_decide_eq_false (Bool.eq_false_iff.mpr (List.find?_eq_none.mp hf b hb)))
  | some c =>
    obtain ⟨hc, ht⟩ := ticket_of_find? hf
    rw [h.eq_of_ticket hb hc ht]

/-- The next number was not given out. -/
theorem next_not_mem (h : w.Sound) (hn : t.id = (w.heap.manager t.owner).issued + 1) :
    t ∉ w.issued.map (·.ticket) := by
  intro ht
  obtain ⟨r, hr, rfl⟩ := List.mem_map.mp ht
  have hid : r.ticket.id ∈ (w.issuedBy r.ticket.owner).map (·.ticket.id) :=
    List.mem_map_of_mem (f := fun r : Receipt => r.ticket.id)
      (List.mem_filter.mpr ⟨hr, decide_eq_true rfl⟩)
  rw [h.counted] at hn
  rw [h.numbered, List.mem_range'_1] at hid
  have hlen : r.ticket.id = (w.issuedBy r.ticket.owner).length + 1 := hn
  omega

/-- What is left without a buffer, and that buffer, are what was there before. -/
theorem perm_alive (h : w.Sound) (hb : b ∈ w.heap.buffers) :
    w.alive.Perm (b.receipt :: (w.release b).alive) := by
  have hnd : (w.alive.map (·.ticket)).Nodup := h.once.sublist (List.filter_sublist.map _)
  have hleft : w.alive.erase b.receipt = w.alive.filter (·.ticket ≠ b.ticket) := by
    rw [(hnd.of_map _).erase_eq_filter]
    refine List.filter_congr fun r hr => Bool.eq_iff_iff.mpr ?_
    have hr' : r.ticket = b.ticket ↔ r = b.receipt :=
      ⟨List.inj_on_of_nodup_map hnd hr (h.mem_issued hb).1, fun h => h ▸ rfl⟩
    simp [hr']
  rw [alive_release, ← hleft]
  exact List.perm_cons_erase (h.mem_issued hb).1

/-- Only the buffers of its own manager get fewer. -/
theorem perm_aliveOf (h : w.Sound) (hb : b ∈ w.heap.buffers) (i : Nat) :
    (w.aliveOf i).Perm ((w.release b).aliveOf i ++ if i = b.ticket.owner then [b.receipt] else []) := by
  have hperm := ((h.perm_alive hb).trans (List.perm_append_singleton ..).symm).filter (·.ticket.owner = i)
  rwa [filter_owner_append] at hperm

/-- What a buffer takes off its manager's counters was counted. -/
theorem room (h : w.Sound) (hb : b ∈ w.heap.buffers) :
    1 ≤ (w.heap.manager b.ticket.owner).live ∧ b.size ≤ (w.heap.manager b.ticket.owner).bytes := by
  have hperm := h.perm_aliveOf hb b.ticket.owner
  rw [if_pos rfl] at hperm
  rw [h.counted]
  unfold tally
  rw [hperm.length_eq, (hperm.map _).sum_eq, List.length_append, List.map_append, List.sum_append]
  exact ⟨Nat.le_add_left .., Nat.le_add_left ..⟩

theorem freed (h : w.Sound) (hb : b ∈ w.heap.buffers) : w.heap.Freed b (w.heap.release b) := by
  obtain ⟨hlive, hbytes⟩ := h.room hb
  have hown := w.heap.manager_release b b.ticket.owner
  rw [if_pos rfl] at hown
  refine ⟨?_, ?_, ?_, fun i hi => (w.heap.manager_release b i).trans (if_neg hi), ?_⟩
  · rw [hown]
    exact (Nat.sub_add_cancel hlive).symm
  · rw [hown]
    exact (Nat.sub_add_cancel hbytes).symm
  · rw [hown]
  · have hleft : (w.heap.release b).buffers = w.heap.buffers.erase b := by
      rw [(h.nodup_tickets.of_map _).erase_eq_filter]
      refine List.filter_congr fun c hc => Bool.eq_iff_iff.mpr ?_
      have hc' : c.ticket = b.ticket ↔ c = b := ⟨h.eq_of_ticket hb hc, fun h => h ▸ rfl⟩
      simp [hc']
    rw [hleft]
    exact List.perm_cons_erase hb

/-- A copy that is refused writes back what was there. -/
theorem store_contents (h : w.Sound) (hb : b ∈ w.heap.buffers) : w.heap.store b b.contents = w.heap := by
  have hsame : b.store b.contents = b :=
    congrArg (fun block => { b with block }) (Block.store_decode (Nat.le_of_eq (h.sized b hb).symm))
  have hmap : (w.heap.buffers.map fun c => if c.ticket = b.ticket then b.store b.contents else c) =
      w.heap.buffers := by
    refine (List.map_congr_left fun c hc => ?_).trans (List.map_id _)
    split
    · rename_i ht
      rw [hsame, h.eq_of_ticket hb hc ht]
      rfl
    · rfl
  exact congrArg (fun buffers => { w.heap with buffers }) hmap

/-! ## what steps preserve -/

theorem manager (h : w.Sound) : Sound { w with heap := w.heap.addManager.2 } := by
  refine ⟨fun i hi => ?_, fun r hr => Nat.lt_succ_of_lt (h.owners r hr), h.numbered, h.once, h.given,
    h.buffers, h.sized, fun i => ?_⟩
  · have hlt : w.heap.nextManager < i := hi
    show (w.heap.managers.insert _ _).find? i = none
    rw [Registry.find?_insert, if_neg (Nat.ne_of_gt hlt)]
    exact h.managers i (Nat.le_of_lt hlt)
  · exact (Heap.manager_addManager (h.managers _ (Nat.le_refl _)) i).trans (h.counted i)

/-- Counting is done for managers that there are. -/
theorem setManager (h : w.Sound) (hi : i < w.heap.nextManager) (m : Manager) {j : Nat}
    (hj : w.heap.nextManager ≤ j) : (w.heap.setManager i m).managers.find? j = none := by
  show (w.heap.managers.insert i m).find? j = none
  rw [Registry.find?_insert, if_neg (Nat.ne_of_gt (Nat.lt_of_lt_of_le hi hj))]
  exact h.managers j hj

theorem enlist (h : w.Sound) (known : (w.heap.managers.find? b.ticket.owner).isSome)
    (next : b.ticket.id = (w.heap.manager b.ticket.owner).issued + 1)
    (sized : b.size = b.length * b.element.bytes) : (w.enlist b).Sound := by
  have hlt : b.ticket.owner < w.heap.nextManager := by
    refine Nat.not_le.mp fun hle => ?_
    rw [h.managers _ hle] at known
    cases known
  have hnew := h.next_not_mem next
  have hdropped : b.ticket ∉ w.dropped := fun hd => hnew (h.given _ hd)
  refine ⟨fun i hi => h.setManager hlt _ hi, fun r hr => ?_, fun i => ?_, ?_, fun t ht => ?_, ?_,
    fun c hc => ?_, fun i => ?_⟩
  · rcases List.mem_append.mp hr with hr | hr
    · exact h.owners r hr
    · rw [List.mem_singleton.mp hr]
      exact hlt
  · rw [issuedBy_enlist, List.map_append, List.length_append, h.numbered]
    by_cases hi : i = b.ticket.owner
    · have hid : b.receipt.ticket.id = 1 + (w.issuedBy i).length := by
        rw [Nat.add_comm, hi]
        exact next.trans (congrArg (·.issued + 1) (h.counted _))
      rw [if_pos hi, List.length_singleton, List.range'_1_concat, ← hid]
      rfl
    · rw [if_neg hi]
      exact List.append_nil _
  · have hnd := List.Nodup.concat hnew h.once
    rw [List.concat_eq_append] at hnd
    show ((w.issued ++ [b.receipt]).map _).Nodup
    rw [List.map_append]
    exact hnd
  · exact List.map_append ▸ List.mem_append_left _ (h.given t ht)
  · show (w.heap.buffers ++ [b]).map _ = _
    rw [List.map_append, h.buffers, alive_enlist hdropped]
    rfl
  · rcases List.mem_append.mp hc with hc | hc
    · exact h.sized c hc
    · rw [List.mem_singleton.mp hc]
      exact sized
  · rw [manager_enlist, tally_enlist hdropped, h.counted, h.counted]

theorem release (h : w.Sound) (hb : b ∈ w.heap.buffers) : (w.release b).Sound := by
  have hissued := (h.mem_issued hb).2
  refine ⟨fun i hi => h.setManager (h.owners _ hissued) _ hi, h.owners, h.numbered, h.once, ?_, ?_,
    fun c hc => h.sized c (List.mem_of_mem_filter hc), fun i => ?_⟩
  · exact List.forall_mem_cons.mpr ⟨List.mem_map_of_mem hissued, h.given⟩
  · show (w.heap.buffers.filter (·.ticket ≠ b.ticket)).map _ = _
    rw [alive_release, ← h.buffers, List.filter_map]
    rfl
  · have hperm := h.perm_aliveOf hb i
    have hlen := hperm.length_eq
    have hsum := (hperm.map (·.size)).sum_eq
    rw [List.length_append] at hlen
    rw [List.map_append, List.sum_append] at hsum
    show (w.heap.release b).manager i = ⟨_, _, (w.issuedBy i).length⟩
    rw [w.heap.manager_release]
    by_cases hi : i = b.ticket.owner
    · rw [if_pos hi] at hlen hsum ⊢
      rw [← hi, h.counted]
      unfold tally
      rw [hlen, hsum]
      exact congrArg (Manager.mk _ · _) (Nat.add_sub_cancel ..)
    · rw [if_neg hi] at hlen hsum ⊢
      rw [h.counted]
      unfold tally
      rw [hlen, hsum]
      rfl

theorem store (h : w.Sound) (hb : b ∈ w.heap.buffers) (xs : List (Lane b.element)) :
    Sound { w with heap := w.heap.store b xs } := by
  have hsize : (b.store xs).size = b.size := Block.size_store ..
  refine ⟨h.managers, h.owners, h.numbered, h.once, h.given, ?_, fun c hc => ?_, h.counted⟩
  · refine Eq.trans ?_ h.buffers
    show (w.heap.buffers.map _).map Buffer.receipt = _
    rw [List.map_map]
    refine List.map_congr_left fun c hc => ?_
    show Buffer.receipt (if c.ticket = b.ticket then b.store xs else c) = _
    split
    · rename_i ht
      rw [h.eq_of_ticket hb hc ht]
      exact congrArg (Receipt.mk b.ticket) hsize
    · rfl
  · obtain ⟨d, hd, rfl⟩ := List.mem_map.mp hc
    split
    · exact hsize.trans (h.sized b hb)
    · exact h.sized d hd

/-- Whatever a step does, the counters still say what the history says. -/
theorem effect (h : w.Sound) (he : w.Effect v) : v.Sound := by
  cases he with
  | none => exact h
  | manager => exact h.manager
  | enlisted known next sized => exact h.enlist known next sized
  | released hb => exact h.release hb
  | stored hb xs => exact h.store hb xs

end Sound

/-- Every reachable world is sound. -/
theorem Reachable.sound (h : w.Reachable) : w.Sound := by
  induction h with
  | empty => exact sound_empty
  | step _ hs ih => exact ih.effect (step_effect hs)

/-! ## all of it -/

/-- **Every buffer is counted by the manager it came from, until it is dropped.**  The counters of a manager
are the number and the bytes of its buffers that were not dropped yet, and its buffers are numbered one after
the other.  Whoever is asked to take a buffer back, the buffer goes and its own manager counts it off, which
never takes more than there is; another manager answers that the buffer is foreign, and counts as before.
What is refused, be it an allocation or a copy out of bounds, changes neither counters nor elements. -/
theorem managers_account (hw : w.Reachable) :
    (∀ i, (w.heap.manager i).live = (w.aliveOf i).length ∧
      (w.heap.manager i).bytes = ((w.aliveOf i).map (·.size)).sum ∧
      (w.heap.manager i).issued = (w.issuedBy i).length ∧
      (w.issuedBy i).map (·.ticket.id) = List.range' 1 (w.issuedBy i).length) ∧
    w.heap.buffers.map Buffer.receipt = w.alive ∧
    (∀ manager a e count alignment b, (w.heap.allocate a manager e count alignment).result = .ok b →
      b.ticket = ⟨manager, (w.issuedBy manager).length + 1⟩ ∧
      ∀ i, (w.heap.allocate a manager e count alignment).heap.manager i =
        if i = manager then
          ⟨(w.aliveOf i).length + 1, ((w.aliveOf i).map (·.size)).sum + count * e.bytes,
            (w.issuedBy i).length + 1⟩
        else w.heap.manager i) ∧
    (∀ manager a e count alignment err, (w.heap.allocate a manager e count alignment).result = .error err →
      (w.heap.allocate a manager e count alignment).heap = w.heap) ∧
    (∀ b ∈ w.heap.buffers,
      (∀ manager, ∃ reply, w.heap.deallocate manager b.ticket = some reply ∧
        reply.result = (if b.ticket.owner = manager then .ok ()
          else .error (.foreignHandle b.ticket.id b.ticket.owner manager)) ∧
        w.heap.Freed b reply.heap) ∧
      ∃ after, w.heap.drop b.ticket = some after ∧ w.heap.Freed b after) ∧
    ∀ b ∈ w.heap.buffers, ∀ a start length src count,
      min ((b.contents.drop start).take length).length src.length < count →
      b.copy a start length src count = (b.contents,
        .error (.bufferOutOfBounds count (min ((b.contents.drop start).take length).length src.length)), []) ∧
      w.heap.store b (b.copy a start length src count).1 = w.heap := by
  have h := hw.sound
  refine ⟨fun i => ?_, h.buffers, fun manager a e count alignment b hb => ?_,
    fun manager a e count alignment err herr => Heap.heap_of_allocate_error herr,
    fun b hb => ⟨fun manager => ?_, ?_⟩, fun b hb a start length src count hc => ?_⟩
  · rw [h.counted]
    exact ⟨rfl, rfl, rfl, h.numbered i⟩
  · rw [w.heap.allocate_of_grant] at hb ⊢
    cases hg : Memory.Request.grant a.grants e count alignment with
    | error err =>
      rw [hg] at hb
      cases hb
    | ok block =>
      rw [hg] at hb
      cases hb
      refine ⟨congrArg (fun m : Manager => Ticket.mk manager (m.issued + 1)) (h.counted manager), fun i => ?_⟩
      refine (w.heap.manager_setManager ..).trans ?_
      by_cases hi : i = manager
      · rw [if_pos hi, if_pos hi, h.counted, hi]
        rfl
      · rw [if_neg hi, if_neg hi]
  · unfold Heap.deallocate
    rw [h.find?_of_mem hb]
    by_cases ho : b.ticket.owner = manager
    · exact ⟨_, rfl, by rw [if_neg (not_not_intro ho), if_pos ho], by
        rw [if_neg (not_not_intro ho)]
        exact h.freed hb⟩
    · exact ⟨_, rfl, by rw [if_pos ho, if_neg ho], by
        rw [if_pos ho]
        exact h.freed hb⟩
  · unfold Heap.drop
    rw [h.find?_of_mem hb]
    exact ⟨_, rfl, h.freed hb⟩
  · have hcopy := Buffer.copy_of_lt a hc
    rw [hcopy]
    exact ⟨rfl, h.store_contents hb⟩

/-- Two managers.  The first has given out sixteen and eight bytes, and the second four. -/
def sample : World :=
  (empty.run [.addManager, .addManager, .allocate 1 .plain .u32 4 0, .allocate 1 .plain .u16 4 0,
    .allocate 2 .plain .u8 4 64]).get rfl

theorem reachable_sample : sample.Reachable := Reachable.empty.run (Option.some_get _).symm

/-- the first of them -/
def sampleBuffer : Buffer := ⟨⟨1, 1⟩, .u32, 4, ⟨List.replicate 16 0, 4⟩⟩

/-- The second manager does not take it, and yet the first one has a buffer less.  To copy five elements to the
two in its middle is refused. -/
theorem managers_account_sample : sample.Reachable ∧ sampleBuffer ∈ sample.heap.buffers ∧
    (∃ reply, sample.heap.deallocate 2 ⟨1, 1⟩ = some reply ∧
      reply.result = .error (.foreignHandle 1 1 2) ∧ (reply.heap.manager 1).live = 1 ∧
      (reply.heap.manager 1).bytes = 8 ∧ reply.heap.manager 2 = ⟨1, 4, 1⟩) ∧
    ∀ src, sample.heap.store sampleBuffer (sampleBuffer.copy .plain 1 2 src 5).1 = sample.heap := by
  obtain ⟨-, -, -, -, hfree, hcopy⟩ := managers_account reachable_sample
  have hb : sampleBuffer ∈ sample.heap.buffers := List.mem_cons_self
  refine ⟨reachable_sample, hb, ?_, fun src => (hcopy _ hb .plain 1 2 src 5 ?_).2⟩
  · obtain ⟨reply, hreply, hresult, hfreed⟩ := (hfree _ hb).1 2
    have hlive : (reply.heap.manager 1).live + 1 = 1 + 1 := hfreed.live.symm
    have hbytes : (reply.heap.manager 1).bytes + 16 = 8 + 16 := hfreed.bytes.symm
    exact ⟨reply, hreply, hresult, Nat.add_right_cancel hlive, Nat.add_right_cancel hbytes,
      hfreed.others 2 (by decide)⟩
  · have hwindow : ((sampleBuffer.contents.drop 1).take 2).length ≤ 2 := List.length_take_le ..
    exact Nat.lt_of_le_of_lt (Nat.le_trans (Nat.min_le_left ..) hwindow) (by decide)

end World

end Offload.Host
