import Offload.Proofs.Accelerator.Profile
import Offload.Proofs.Accelerator.Store

/-!
# Calls that do not meet

A copy to the device or a submission reads what its handles name and writes one of these buffers.  So its
outcome is a function of those buffers, and calls that do not meet in a buffer that one of them writes can be
made in either order.

* `Call.target?`       the buffer that such a call writes; `Call.Spares` says that a call keeps away from one;
* `Stroke`             all that such a call does to an executor, whatever else that holds;
* `Executor.Alike`     two executors that a call cannot tell apart;
* `Executor.Footprint` a call does the same stroke to all executors that are alike to it (`Sound.footprint`);
* `Stroke.comm`        strokes to different buffers can be made in either order;
* `independent_calls_commute`  so can the calls, and no more than the order of their labels shows.
-/

namespace Offload.Accelerator

/-! ## what a call touches -/

namespace Call

/-- the buffer that a copy or a submission writes on the device -/
def target? : Call → Option AnyHandle
  | copy e (.device d) _ _ => some ⟨e, d⟩
  | submit k _ output _ _ => some ⟨k.output, output⟩
  | _ => none

/-- No handle of the call names that buffer. -/
def Spares (c : Call) (t : AnyHandle) : Prop := ∀ s ∈ c.handles, s.owner = t.owner → s.id ≠ t.id

theorem target_mem_handles {e : Element} (d : Handle e) (src : Source e) (count : Nat) :
    ⟨e, d⟩ ∈ (copy e (.device d) src count).handles := List.mem_append_left _ List.mem_cons_self

theorem source_mem_handles {e : Element} (dst : Target e) (s : Handle e) (count : Nat) :
    ⟨e, s⟩ ∈ (copy e dst (.device s) count).handles := List.mem_append_right _ List.mem_cons_self

section
variable (k : Kernel) (width : Nat) (output : Handle k.output) (inputs : List (Handle k.input)) (count : Nat)

theorem output_mem_handles : ⟨k.output, output⟩ ∈ (submit k width output inputs count).handles :=
  List.mem_cons_self

theorem input_mem_handles : ∀ g ∈ inputs, ⟨k.input, g⟩ ∈ (submit k width output inputs count).handles :=
  fun _ hg => List.mem_cons_of_mem _ (List.mem_map_of_mem hg)

end

theorem target?_mem_handles {c : Call} {t : AnyHandle} (h : c.target? = some t) : t ∈ c.handles := by
  cases c with
  | copy e dst src count =>
    cases dst with
    | host d => cases h
    | device d =>
      cases h
      exact target_mem_handles d src count
  | submit k width output inputs count =>
    cases h
    exact output_mem_handles k width output inputs count
  | _ => cases h

end Call

/-! ## strokes -/

/-- What a call does to an executor: a label for the queue, an allocation in the place of another, and the
state that the result tells. -/
structure Stroke (α : Type) where
  label? : Option String
  write? : Option (Nat × Allocation)
  result : Outcome α
  events : List Event

namespace Stroke

variable {α β : Type}

def on (s : Stroke α) (x : Executor) : Reply α :=
  ⟨{ x with
      queue := x.queue.note s.label?
      memory := s.write?.elim x.memory fun w => x.memory.restore w.1 w.2
      state := Lifecycle.after s.result }, s.result, s.events⟩

/-- A stroke after which the executor is still ready does not touch the state. -/
theorem on_of_ready {s : Stroke α} {x : Executor} (hr : x.state = .ready)
    (h : Lifecycle.after s.result = .ready) :
    s.on x =
      ⟨{ x with
          queue := x.queue.note s.label?
          memory := s.write?.elim x.memory fun w => x.memory.restore w.1 w.2 }, s.result, s.events⟩ := by
  unfold on
  rw [h, ← hr]

/-- nothing but an answer -/
def answer (result : Outcome α) : Stroke α := ⟨none, none, result, []⟩

theorem refused_on {x : Executor} (hr : x.state = .ready) {err : Error} (h : err.refuses = true) :
    x.refuse err = (answer (.error (.error err)) : Stroke α).on x :=
  (on_of_ready (s := answer (.error (.error err))) hr (Lifecycle.after_of_refuses h)).symm

/-- what a copy does that writes to an allocation -/
def transfer {e : Element} (a : Ambient) (d : Handle e) (src : Source e) (count : Nat) (b : Allocation)
    (xs : List (Lane e)) : Stroke Unit where
  label? := Call.copyLabel? (.device d) src
  write? := some (d.id, b.store xs)
  result := .ok ()
  events := Executor.transferred a e count (Call.copyDirection (.device d) src)

/-- what is logged of a command -/
def commandEvents (executor : Nat) (label : String) (outcome : Outcome α) (notes : List Trace.Note) :
    List Event :=
  notes.map Event.remark ++
    match Queue.report label outcome with
    | .ok _ => []
    | .error err =>
      if err.kind = .kernel then [.kernelFailed executor label err] else [.deviceFaulted executor label err]

/-- what a command does that writes one allocation -/
def command (executor : Nat) (label : String) (write : Nat × Allocation) (outcome : Outcome α)
    (notes : List Trace.Note) : Stroke α where
  label? := some label
  write? := some write
  result := .ofExcept (Queue.report label outcome)
  events := commandEvents executor label outcome notes

/-- what a submission does that calls the kernel on the first elements of certain allocations -/
def submission (a : Ambient) (executor : Nat) (k : Kernel) (s : Style) (output : Handle k.output) (count : Nat)
    (b : Allocation) (bs : List Allocation) : Stroke Unit :=
  let run := k.apply s (b.front k.output count) (bs.map (·.front k.input count)) count
  let c := command executor s!"kernel:{k.name}" (output.id, b.store run.output) run.outcome run.notes
  let span := Trace.Span.configured a.settings s!"{Executor.backend}_submit:{k.name}"
  let record := match c.result with
    | .ok () => Trace.measured a.settings (.submission k.name Executor.backend count a.work)
    | .error _ => []
  { c with events := c.events ++ record ++ Trace.ended a.settings span a.span }

theorem find?_on (s : Stroke α) (x : Executor) {id : Nat} (h : ∀ w, s.write? = some w → id ≠ w.1) :
    (s.on x).executor.memory.live.find? id = x.memory.live.find? id := by
  unfold on
  cases hw : s.write? with
  | none => rfl
  | some w => exact (Memory.find?_restore ..).trans (if_neg (h w hw))

/-- What is live stays so, and nothing else comes to be. -/
theorem contains_on (s : Stroke α) (x : Executor)
    (h : ∀ w, s.write? = some w → x.memory.contains w.1 = true) (id : Nat) :
    (s.on x).executor.memory.contains id = x.memory.contains id := by
  by_cases hid : ∃ w, s.write? = some w ∧ id = w.1
  · obtain ⟨w, hw, rfl⟩ := hid
    refine Eq.trans ?_ (h w hw).symm
    unfold on
    rw [hw]
    exact congrArg Option.isSome ((Memory.find?_restore ..).trans (if_pos rfl))
  · exact congrArg Option.isSome (s.find?_on x fun w hw he => hid ⟨w, hw, he⟩)

/-- Where two executors hold the same, they do so after the same stroke. -/
theorem find?_on_congr (s : Stroke α) {x y : Executor} {id : Nat}
    (h : y.memory.live.find? id = x.memory.live.find? id) :
    (s.on y).executor.memory.live.find? id = (s.on x).executor.memory.live.find? id := by
  unfold on
  cases s.write? with
  | none => exact h
  | some w =>
    refine (Memory.find?_restore ..).trans (Eq.trans ?_ (Memory.find?_restore ..).symm)
    rw [h]

/-- Strokes to different buffers can be made in either order. -/
theorem comm (s : Stroke α) (t : Stroke β) (x : Executor)
    (h : ∀ v w, s.write? = some v → t.write? = some w → v.1 ≠ w.1) :
    (t.on (s.on x).executor).executor.memory = (s.on (t.on x).executor).executor.memory := by
  unfold on
  cases hs : s.write? with
  | none => rfl
  | some v =>
    cases ht : t.write? with
    | none => rfl
    | some w =>
      exact congrArg (Memory.mk · _ _ _ _) (Registry.insert_comm _ v.2 w.2 (h v w hs ht))

end Stroke

/-- The labels of two commands are kept in the order of the commands, and nothing else of the order is. -/
theorem Queue.note_comm (q : Queue) (l m : Option String) :
    ((q.note l).note m).isOpen = ((q.note m).note l).isOpen ∧
      ((q.note l).note m).profile.Perm ((q.note m).note l).profile := by
  constructor
  · cases l <;> cases m <;> rfl
  · unfold profile
    simp only [labels_note]
    cases q.labels with
    | none => exact .refl _
    | some labels =>
      show (labels ++ l.toList ++ m.toList).Perm (labels ++ m.toList ++ l.toList)
      rw [List.append_assoc, List.append_assoc]
      exact List.perm_append_comm.append_left labels

namespace Executor

variable {α : Type} {e : Element} {x y : Executor}

theorem command_events (ho : x.queue.isOpen = true) (label : String) (job : Job α) :
    (x.command label job).events =
      Stroke.commandEvents x.id label (job x.memory).outcome (job x.memory).notes := by
  unfold Executor.command Queue.run Stroke.commandEvents
  rw [if_pos ho]
  dsimp only
  cases Queue.report label (job x.memory).outcome with
  | ok v => exact (List.append_nil _).symm
  | error err =>
    dsimp only
    split <;> rfl

theorem command_eq_stroke (hr : x.state = .ready) (ho : x.queue.isOpen = true) {label : String} {job : Job α}
    {id : Nat} {b : Allocation} {outcome : Outcome α} {notes : List Trace.Note}
    (hj : job x.memory = ⟨x.memory.restore id b, outcome, notes⟩) :
    x.command label job = (Stroke.command x.id label (id, b) outcome notes).on x := by
  have hres := command_result ho label job
  have hevents := x.command_events ho label job
  calc x.command label job
      = ⟨(x.command label job).executor, (x.command label job).result, (x.command label job).events⟩ := rfl
    _ = (Stroke.command x.id label (id, b) outcome notes).on x := by
        rw [command_executor hr ho, hres, hevents, hj]
        rfl

/-- What is admitted writes to a buffer of the executor's own. -/
theorem Admits.owner_of_target? {c : Call} {t : AnyHandle} (h : x.Admits c) (ht : c.target? = some t) :
    t.owner = x.id := (h.2.1 t (Call.target?_mem_handles ht)).1

/-! ## executors that are alike -/

/-- A call tells a ready executor from another neither by its number nor by what is live under the handles.
Only if it is admitted does it look at more than that. -/
structure Alike (x y : Executor) (c : Call) : Prop where
  ready : y.state = .ready
  sound : y.Sound
  id_eq : y.id = x.id
  live : ∀ t ∈ c.handles, t.owner = x.id → y.memory.contains t.id = x.memory.contains t.id
  find : x.Admits c → ∀ t ∈ c.handles, y.memory.live.find? t.id = x.memory.live.find? t.id

namespace Alike

variable {c : Call}

theorem refl (hx : x.Sound) (hr : x.state = .ready) : x.Alike x c :=
  ⟨hr, hx, rfl, fun _ _ _ => rfl, fun _ _ _ => rfl⟩

/-- The same allocations under the handles are more than it takes. -/
theorem of_find (hy : y.Sound) (hr : y.state = .ready) (hid : y.id = x.id)
    (h : ∀ t ∈ c.handles, t.owner = x.id → y.memory.live.find? t.id = x.memory.live.find? t.id) :
    x.Alike y c :=
  ⟨hr, hy, hid, fun t ht ho => congrArg Option.isSome (h t ht ho),
    fun hc t ht => h t ht (hc.2.1 t ht).1⟩

variable (h : x.Alike y c)
include h

theorem checkLive {g : Handle e} (hg : ⟨e, g⟩ ∈ c.handles) : y.checkLive g = x.checkLive g := by
  rw [checkLive_eq, checkLive_eq, h.id_eq]
  by_cases ho : g.owner = x.id
  · have hlive : y.memory.contains g.id = x.memory.contains g.id := h.live _ hg ho
    rw [if_pos ho, if_pos ho, hlive]
  · rw [if_neg ho, if_neg ho]

theorem checkInputs {output : Nat} {inputs : List (Handle e)} (hi : ∀ g ∈ inputs, ⟨e, g⟩ ∈ c.handles) :
    y.checkInputs output inputs = x.checkInputs output inputs := by
  induction inputs with
  | nil => rfl
  | cons g gs ih =>
    rw [Executor.checkInputs, Executor.checkInputs, h.checkLive (hi g List.mem_cons_self),
      ih fun g hg => hi g (List.mem_cons_of_mem _ hg)]

variable (hc : x.Admits c)
include hc

theorem knows (hk : ∀ t ∈ c.handles, x.Knows t.handle) : ∀ t ∈ c.handles, y.Knows t.handle := by
  intro t ht ho b hb
  rw [h.id_eq] at ho
  exact hk t ht ho b ((h.find hc t ht).symm.trans hb)

theorem holds {g : Handle e} (hg : ⟨e, g⟩ ∈ c.handles) {b : Allocation} (hb : x.memory.Holds g b) :
    y.memory.Holds g b :=
  ⟨(h.find hc _ hg).trans hb.find, hb.matches', hb.sound⟩

theorem holdAll {inputs : List (Handle e)} (hi : ∀ g ∈ inputs, ⟨e, g⟩ ∈ c.handles) {bs : List Allocation}
    (hbs : x.memory.HoldAll inputs bs) : y.memory.HoldAll inputs bs := by
  induction hbs with
  | nil => exact .nil
  | cons hb _ ih =>
    exact .cons (h.holds hc (hi _ List.mem_cons_self) hb) (ih fun g hg => hi g (List.mem_cons_of_mem _ hg))

end Alike

theorem Alike.checkCopy {d : Handle e} {src : Source e} {count : Nat} (hr : x.state = .ready)
    (h : x.Alike y (.copy e (.device d) src count)) :
    y.checkCopy (.device d) src count = x.checkCopy (.device d) src count := by
  have htarget : y.checkTarget (.device d) = x.checkTarget (.device d) :=
    h.checkLive (Call.target_mem_handles d src count)
  have hsource : y.checkSource src = x.checkSource src := by
    cases src with
    | host s => rfl
    | device s => exact h.checkLive (Call.source_mem_handles _ s count)
  unfold Executor.checkCopy
  rw [checkReady_of_ready hr, checkReady_of_ready h.ready, htarget, hsource]

theorem Alike.checkSubmit {k : Kernel} {width : Nat} {output : Handle k.output}
    {inputs : List (Handle k.input)} {count : Nat} (hr : x.state = .ready)
    (h : x.Alike y (.submit k width output inputs count)) :
    y.checkSubmit k width output inputs count = x.checkSubmit k width output inputs count := by
  unfold Executor.checkSubmit
  rw [checkReady_of_ready hr, checkReady_of_ready h.ready,
    h.checkLive (Call.output_mem_handles k width output inputs count),
    h.checkInputs (Call.input_mem_handles k width output inputs count)]

/-- What a copy reads is the same. -/
theorem Alike.source {dst : Target e} {src : Source e} {count : Nat} (h : x.Alike y (.copy e dst src count))
    (hc : x.Admits (.copy e dst src count)) : y.memory.source src = x.memory.source src := by
  cases src with
  | host s => rfl
  | device s => exact Memory.contents_congr (h.find hc _ (Call.source_mem_handles dst s count))

/-! ## the stroke of a call -/

/-- **The footprint of a call.**  It does one and the same stroke to all executors that are alike to it.  It
writes at most its target, and that only if it is admitted. -/
structure Footprint (x : Executor) (a : Ambient) (c : Call) (t : AnyHandle) (s : Stroke c.Value) : Prop where
  writes : ∀ w, s.write? = some w → w.1 = t.id ∧ x.Admits c
  same : ∀ y, x.Alike y c → y.perform a c = s.on y

section
variable {a : Ambient} {c : Call} {t : AnyHandle}

theorem Footprint.refused {err : Error} (he : err.refuses = true)
    (h : ∀ y, x.Alike y c → y.perform a c = y.refuse err) :
    x.Footprint a c t (.answer (.error (.error err))) :=
  ⟨nofun, fun y hy => (h y hy).trans (Stroke.refused_on hy.ready he)⟩

theorem Footprint.idle {v : c.Value} (h : ∀ y, x.Alike y c → y.perform a c = ⟨y, .ok v, []⟩) :
    x.Footprint a c t (.answer (.ok v)) :=
  ⟨nofun, fun y hy => (h y hy).trans (Stroke.on_of_ready (s := .answer (.ok v)) hy.ready rfl).symm⟩

end

section
variable (hx : x.Sound) (hr : x.state = .ready)
include hx hr

/-- A copy to the device that passed its checks writes what it reads. -/
theorem Sound.copy_eq_stroke (a : Ambient) {d : Handle e} {src : Source e} {count : Nat}
    (hk : ∀ t ∈ (Call.copy e (.device d) src count).handles, x.Knows t.handle)
    (hc : x.checkCopy (.device d) src count = .ok ()) (hn : 0 < count) {b : Allocation}
    (hb : x.memory.Holds d b) :
    (x.copy a (.device d) src count).2 =
      (Stroke.transfer a d src count b ((x.memory.source src).take count)).on x := by
  obtain ⟨hd, hs⟩ := Call.forall_handles_copy hk
  obtain ⟨m, hmoves, hmove⟩ := hx.move_moves hr a hd hs hc
  rw [copy_of_pos a hc hn, hmove, Stroke.on_of_ready hr rfl]
  generalize (x.move a count (.device d) src).1 = dst' at hmoves
  cases hmoves with
  | @device _ b' hb' =>
    have hbb : b' = b := Option.some.inj (hb'.find.symm.trans hb.find)
    rw [hbb]
    rfl

/-- A submission that passed its checks writes what the kernel makes of what it reads. -/
theorem Sound.submit_eq_stroke (a : Ambient) {k : Kernel} {width : Nat} {output : Handle k.output}
    {inputs : List (Handle k.input)} {count : Nat} {s : Style}
    (hc : x.checkSubmit k width output inputs count = .ok s) (hn : 0 < count) {b : Allocation}
    (hb : x.memory.Holds output b) {bs : List Allocation} (hbs : x.memory.HoldAll inputs bs) :
    x.submit a k width output inputs count = (Stroke.submission a x.id k s output count b bs).on x := by
  obtain ⟨-, -, hi, hno, hni⟩ := (checkSubmit_eq_ok_iff hr).mp hc
  have hjob := hb.kernelJob (s := s) hbs (fun g hg => (hi g hg).2) hno hni
  rw [submit_of_pos a hc hn, command_eq_stroke hr (hx.open_of_ready hr) hjob]
  rfl

theorem Sound.copy_footprint {d : Handle e} {src : Source e} {count : Nat}
    (hk : ∀ t ∈ (Call.copy e (.device d) src count).handles, x.Knows t.handle) (a : Ambient) :
    ∃ s, x.Footprint a (.copy e (.device d) src count) ⟨e, d⟩ s := by
  cases hc : x.checkCopy (.device d) src count with
  | error err =>
    exact ⟨_, .refused (refuses_of_checkCopy hr hc) fun y h =>
      congrArg Prod.snd (copy_of_error a ((h.checkCopy hr).trans hc))⟩
  | ok u =>
    rcases Nat.eq_zero_or_pos count with rfl | hn
    · exact ⟨_, .idle fun y h => congrArg Prod.snd (copy_zero a ((h.checkCopy hr).trans hc))⟩
    · obtain ⟨hd, -, -, -⟩ := (checkCopy_eq_ok_iff hr).mp hc
      have hmem := Call.target_mem_handles d src count
      have hadm := (admits_copy_iff hr).mpr ⟨hc, hn⟩
      obtain ⟨b, hb⟩ := hx.holds (hk _ hmem) hd
      refine ⟨.transfer a d src count b ((x.memory.source src).take count), fun w hw => ?_, fun y h => ?_⟩
      · cases hw
        exact ⟨rfl, hadm⟩
      · rw [← h.source hadm]
        exact h.sound.copy_eq_stroke h.ready a (h.knows hadm hk) ((h.checkCopy hr).trans hc) hn
          (h.holds hadm hmem hb)

theorem Sound.submit_footprint {k : Kernel} {width : Nat} {output : Handle k.output}
    {inputs : List (Handle k.input)} {count : Nat}
    (hk : ∀ t ∈ (Call.submit k width output inputs count).handles, x.Knows t.handle) (a : Ambient) :
    ∃ s, x.Footprint a (.submit k width output inputs count) ⟨k.output, output⟩ s := by
  cases hc : x.checkSubmit k width output inputs count with
  | error err =>
    exact ⟨_, .refused (refuses_of_checkSubmit hr hc) fun y h =>
      submit_of_error a ((h.checkSubmit hr).trans hc)⟩
  | ok s =>
    rcases Nat.eq_zero_or_pos count with rfl | hn
    · exact ⟨_, .idle fun y h => submit_zero a ((h.checkSubmit hr).trans hc)⟩
    · obtain ⟨-, ho, hi, -, -⟩ := (checkSubmit_eq_ok_iff hr).mp hc
      have hadm := (admits_submit_iff hr).mpr ⟨⟨s, hc⟩, hn⟩
      have hout := Call.output_mem_handles k width output inputs count
      have hins := Call.input_mem_handles k width output inputs count
      obtain ⟨b, hb⟩ := hx.holds (hk _ hout) ho
      obtain ⟨bs, hbs⟩ := hx.holdAll (fun g hg => hk _ (hins g hg)) fun g hg => (hi g hg).1
      refine ⟨.submission a x.id k s output count b bs, fun w hw => ?_, fun y h => ?_⟩
      · cases hw
        exact ⟨rfl, hadm⟩
      · rw [← h.id_eq]
        exact h.sound.submit_eq_stroke h.ready a ((h.checkSubmit hr).trans hc) hn (h.holds hadm hout hb)
          (h.holdAll hadm hins hbs)

/-- A copy to the device or a submission has a footprint, whatever comes of its checks. -/
theorem Sound.footprint {c : Call} (hk : ∀ t ∈ c.handles, x.Knows t.handle) {t : AnyHandle}
    (ht : c.target? = some t) (a : Ambient) : ∃ s, x.Footprint a c t s := by
  cases c with
  | copy e dst src count =>
    cases dst with
    | host d => cases ht
    | device d =>
      cases ht
      exact hx.copy_footprint hr hk a
  | submit k width output inputs count =>
    cases ht
    exact hx.submit_footprint hr hk a
  | _ => cases ht

/-- Only a submission can fault. -/
theorem Sound.ready_of_target? {c : Call} (hk : ∀ t ∈ c.handles, x.Knows t.handle) {t : AnyHandle}
    (ht : c.target? = some t) (a : Ambient) (hs : c.isSubmit = false) :
    (x.perform a c).executor.state = .ready := by
  have hend : c.isTeardown = false := by
    cases c with
    | teardown => cases ht
    | _ => rfl
  rcases hx.perform_calm hr a hk hs hend with ⟨err, -, h⟩ | ⟨h, -⟩
  · rw [h]
    exact hr
  · exact h.state_eq

/-- To a call that spares what another one writes, the executor is alike afterwards.  To one that is not
admitted it is so in any case, since the same allocations are live. -/
theorem Sound.alike_perform {c d : Call} {a : Ambient} {t : AnyHandle} {s : Stroke c.Value}
    (hf : x.Footprint a c t s) (ht : c.target? = some t) (hd : x.Admits c → x.Admits d → d.Spares t)
    (hready : (x.perform a c).executor.state = .ready) :
    x.Alike (x.perform a c).executor d where
  ready := hready
  sound := (hx.perform_effect a c).sound hx
  id_eq := (hx.perform_effect a c).id_eq
  live r _ _ := by
    rw [hf.same x (.refl hx hr)]
    refine s.contains_on x (fun w hsw => ?_) r.id
    obtain ⟨hid, hc⟩ := hf.writes w hsw
    rw [hid]
    exact (hc.2.1 t (Call.target?_mem_handles ht)).2
  find hadm r hr' := by
    rw [hf.same x (.refl hx hr)]
    refine s.find?_on x fun w hsw => ?_
    obtain ⟨hid, hc⟩ := hf.writes w hsw
    rw [hid]
    exact hd hc hadm r hr' ((hadm.2.1 r hr').1.trans (hc.owner_of_target? ht).symm)

/-- Calls that spare what the other one writes can be made in either order. -/
theorem Sound.perform_comm {X Y : Call} {s t : AnyHandle} (hX : ∀ r ∈ X.handles, x.Knows r.handle)
    (hY : ∀ r ∈ Y.handles, x.Knows r.handle) (hs : X.target? = some s) (ht : Y.target? = some t)
    (hapart : x.Admits X → x.Admits Y → X.Spares t ∧ Y.Spares s) (a b : Ambient)
    (hreadyX : (x.perform a X).executor.state = .ready) (hreadyY : (x.perform b Y).executor.state = .ready) :
    let first := (x.perform a X).executor.perform b Y
    let second := (x.perform b Y).executor.perform a X
    second.result = (x.perform a X).result ∧ second.events = (x.perform a X).events ∧
    first.result = (x.perform b Y).result ∧ first.events = (x.perform b Y).events ∧
    first.executor.state = .ready ∧
    first.executor = { second.executor with queue := first.executor.queue } ∧
    first.executor.queue.isOpen = second.executor.queue.isOpen ∧
    first.executor.queue.profile.Perm second.executor.queue.profile := by
  obtain ⟨p, hp⟩ := hx.footprint hr hX hs a
  obtain ⟨q, hq⟩ := hx.footprint hr hY ht b
  have hpx := hp.same x (.refl hx hr)
  have hqx := hq.same x (.refl hx hr)
  have hfirst := hq.same _ (hx.alike_perform hr hp hs (fun hX hY => (hapart hX hY).2) hreadyX)
  have hsecond := hp.same _ (hx.alike_perform hr hq ht (fun hY hX => (hapart hX hY).1) hreadyY)
  have hne : ∀ v w, p.write? = some v → q.write? = some w → v.1 ≠ w.1 := by
    intro v w hv hw
    obtain ⟨hvid, hadmX⟩ := hp.writes v hv
    obtain ⟨hwid, hadmY⟩ := hq.writes w hw
    rw [hvid, hwid]
    exact (hapart hadmX hadmY).1 s (Call.target?_mem_handles hs)
      ((hadmX.owner_of_target? hs).trans (hadmY.owner_of_target? ht).symm)
  have hmem := p.comm q x hne
  rw [hpx] at hreadyX hfirst ⊢
  rw [hqx] at hreadyY hsecond ⊢
  dsimp only
  rw [hfirst, hsecond]
  obtain ⟨hopen, hprofile⟩ := x.queue.note_comm p.label? q.label?
  have hstate : (q.on (p.on x).executor).executor.state = (p.on (q.on x).executor).executor.state :=
    Eq.trans hreadyY hreadyX.symm
  refine ⟨rfl, rfl, rfl, rfl, hreadyY, ?_, hopen, hprofile⟩
  exact congrArg₂ (Executor.mk x.id x.device · (q.on (p.on x).executor).executor.queue ·) hmem hstate

end

end Executor

namespace World

variable {w : World} {i : Nat} {x : Executor}

/-- **Calls that do not meet commute.**  Take two copies to the device or submissions, neither of which faults
when it comes first.  Neither may name the buffer that the other one writes, unless one of them is not even
admitted.  In either order each of them comes to the same result and logs the same; afterwards the executor is
ready, and all of it is the same but the order of the labels in its profile.  This is because the outcome of
such a call depends on nothing but what its handles name: any executor of that number that holds the same
there does the same, whatever else it holds. -/
theorem independent_calls_commute (hw : w.Reachable) (hx : w.fleet.find? i = some x) (hr : x.state = .ready) :
    (∀ (X Y : Call) (s t : AnyHandle) (a b : Ambient), X.target? = some s → Y.target? = some t →
      (∀ h ∈ X.handles, h ∈ w.ledger.issued) → (∀ h ∈ Y.handles, h ∈ w.ledger.issued) →
      (x.Admits X → x.Admits Y → X.Spares t ∧ Y.Spares s) →
      (X.isSubmit = true → (x.perform a X).executor.state = .ready) →
      (Y.isSubmit = true → (x.perform b Y).executor.state = .ready) →
      let first := (x.perform a X).executor.perform b Y
      let second := (x.perform b Y).executor.perform a X
      second.result = (x.perform a X).result ∧ second.events = (x.perform a X).events ∧
      first.result = (x.perform b Y).result ∧ first.events = (x.perform b Y).events ∧
      first.executor.state = .ready ∧
      first.executor = { second.executor with queue := first.executor.queue } ∧
      first.executor.queue.isOpen = second.executor.queue.isOpen ∧
      first.executor.queue.profile.Perm second.executor.queue.profile) ∧
    ∀ (X : Call) (s : AnyHandle) (a : Ambient), X.target? = some s → (∀ h ∈ X.handles, h ∈ w.ledger.issued) →
      ∀ (v : World) (y : Executor), v.Reachable → v.fleet.find? i = some y → y.state = .ready →
        (∀ h ∈ X.handles, h.owner = i → y.memory.live.find? h.id = x.memory.live.find? h.id) →
        (y.perform a X).result = (x.perform a X).result ∧ (y.perform a X).events = (x.perform a X).events ∧
        (y.perform a X).executor.state = (x.perform a X).executor.state ∧
        (s.owner = i → (y.perform a X).executor.memory.live.find? s.id =
          (x.perform a X).executor.memory.live.find? s.id) := by
  have hsound := hw.sound
  obtain ⟨rfl, -, hxs, -⟩ := hsound.executors hx
  constructor
  · intro X Y s t a b hs ht hX hY hapart hcalmX hcalmY
    have ready {c : Call} {r : AnyHandle} {a : Ambient} (hr' : c.target? = some r)
        (hc : ∀ h ∈ c.handles, h ∈ w.ledger.issued)
        (hcalm : c.isSubmit = true → (x.perform a c).executor.state = .ready) :
        (x.perform a c).executor.state = .ready := by
      cases hsub : c.isSubmit with
      | true => exact hcalm hsub
      | false => exact hxs.ready_of_target? hr (fun h hh => hsound.knows hx (hc h hh)) hr' a hsub
    exact hxs.perform_comm hr (fun h hh => hsound.knows hx (hX h hh)) (fun h hh => hsound.knows hx (hY h hh))
      hs ht hapart a b (ready hs hX hcalmX) (ready ht hY hcalmY)
  · intro X s a hs hX v y hv hy hyr hfind
    obtain ⟨hyid, -, hys, -⟩ := hv.sound.executors hy
    obtain ⟨p, hp⟩ := hxs.footprint hr (fun h hh => hsound.knows hx (hX h hh)) hs a
    rw [hp.same x (.refl hxs hr), hp.same y (.of_find hys hyr hyid hfind)]
    exact ⟨rfl, rfl, rfl, fun ho => p.find?_on_congr (hfind s (Call.target?_mem_handles hs) ho)⟩

/-- two elements to the first allocation of the pair -/
def pairCopy : Call := .copy .u8 (.device sampleHandle) (.host [1, 2]) 2

/-- a kernel that refuses to write to the second one -/
def pairSubmission : Call := .submit (.failing (.error (.kernel "failing" "no"))) 8 visibleHandle [] 4

/-- The copy and the submission can be made in either order, though the submission comes to an error. -/
theorem independent_calls_commute_pair :
    pair.Reachable ∧ pair.fleet.find? 1 = some pairExecutor ∧ pairExecutor.state = .ready ∧
      let first := (pairExecutor.perform .plain pairCopy).executor.perform .plain pairSubmission
      let second := (pairExecutor.perform .plain pairSubmission).executor.perform .plain pairCopy
      second.result = (pairExecutor.perform .plain pairCopy).result ∧
      first.result = (pairExecutor.perform .plain pairSubmission).result ∧
      first.executor = { second.executor with queue := first.executor.queue } ∧
      (pairExecutor.perform .plain pairCopy).result = .ok () ∧
      (pairExecutor.perform .plain pairSubmission).result = .error (.error (.kernel "failing" "no")) := by
  have hcopy : ∀ h ∈ pairCopy.handles, h ∈ pair.ledger.issued := by decide
  have hsubmission : ∀ h ∈ pairSubmission.handles, h ∈ pair.ledger.issued := by decide
  have hspares : pairCopy.Spares ⟨.u8, visibleHandle⟩ := by
    unfold Call.Spares
    decide
  have hspared : pairSubmission.Spares ⟨.u8, sampleHandle⟩ := by
    unfold Call.Spares
    decide
  obtain ⟨hcommute, -⟩ := independent_calls_commute reachable_pair find?_pair rfl
  obtain ⟨hsecond, -, hfirst, -, -, hsame, -⟩ := hcommute pairCopy pairSubmission _ _ .plain .plain rfl rfl
    hcopy hsubmission (fun _ _ => ⟨hspares, hspared⟩) (fun h => nomatch h) fun _ => rfl
  exact ⟨reachable_pair, find?_pair, rfl, hsecond, hfirst, hsame, rfl, rfl⟩

end World

end Offload.Accelerator
