import Offload.Proofs.Accelerator.Store

/-!
# Submissions

A kernel is any function of its views: it may write to its output and then finish, refuse or crash.
Whatever it is, a submission is confined to the first elements of the output.

* `Reply.heard`          what kernels had to say in the course of a call;
* `Store.apply`          a kernel called with the first elements that its handles stand for;
* `Submittable`          what a submission must find: a width of whole lanes, handles that are held, an
                         output apart from the inputs, and enough elements everywhere;
* `InOrder.submit`       what is submittable calls the kernel once, and the output is as it leaves it;
* `submit_congr`         of a kernel no more shows than this one call;
* `submission_confined`  all this for every executor that can be reached.
-/

namespace Offload

def Event.remark? : Event → Option Trace.Note
  | remark n => some n
  | _ => none

namespace Accelerator

/-- what kernels had to say -/
def Reply.heard {α : Type} (r : Reply α) : List Trace.Note := r.events.filterMap Event.remark?

theorem filterMap_remark (notes : List Trace.Note) :
    (notes.map Event.remark).filterMap Event.remark? = notes := by
  rw [List.filterMap_map]
  exact List.filterMap_some

theorem filterMap_measured (settings : Trace.Settings) (m : Trace.Measure) :
    (Trace.measured settings m).filterMap Event.remark? = [] := by
  unfold Trace.measured
  split <;> rfl

theorem filterMap_ended (settings : Trace.Settings) (span : Trace.Span) (us : Nat) :
    (Trace.ended settings span us).filterMap Event.remark? = [] := by
  unfold Trace.ended
  split <;> rfl

theorem Memory.SameBut.refl (m : Memory) (id bytes : Nat) : m.SameBut m id bytes :=
  ⟨rfl, fun _ => rfl, rfl, fun _ _ => rfl, rfl, rfl⟩

theorem Memory.HoldAll.map_contents {e : Element} {m : Memory} {hs : List (Handle e)}
    {as : List Allocation} {count : Nat} (hh : m.HoldAll hs as) (hn : ∀ g ∈ hs, count ≤ g.length) :
    (hs.map fun g => (m.contents g).take count) = as.map (·.front e count) := by
  induction hh with
  | nil => rfl
  | cons hd _ ih =>
    rw [List.map_cons, List.map_cons, hd.take_contents (hn _ List.mem_cons_self),
      ih fun g hg => hn g (List.mem_cons_of_mem _ hg)]

/-- A kernel called with the first elements that its handles stand for, in their order. -/
def Store.apply (σ : Store) (k : Kernel) (s : Style) (output : Handle k.output)
    (inputs : List (Handle k.input)) (count : Nat) : Kernel.Run k.output :=
  k.apply s ((σ ⟨k.output, output⟩).take count)
    (inputs.map fun g => (σ ⟨k.input, g⟩).take count) count

/-- what a submission must find among the handles that are held -/
structure Submittable (H : List AnyHandle) (k : Kernel) (width : Nat) (output : Handle k.output)
    (inputs : List (Handle k.input)) (count : Nat) : Prop where
  width_pos : 0 < width
  bits_dvd : k.input.bits ∣ width
  output_mem : ⟨k.output, output⟩ ∈ H
  inputs_mem : ∀ g ∈ inputs, ⟨k.input, g⟩ ∈ H
  apart : ∀ g ∈ inputs, g.id ≠ output.id
  output_le : count ≤ output.length
  inputs_le : ∀ g ∈ inputs, count ≤ g.length

namespace Executor

variable {α : Type} {x : Executor} {l : Ledger} {k : Kernel} {width count : Nat}
  {output : Handle k.output} {inputs : List (Handle k.input)}

/-! ## one call of the kernel -/

theorem heard_command (ho : x.queue.isOpen = true) (label : String) (job : Job α) :
    (x.command label job).heard = (job x.memory).notes := by
  unfold command Queue.run Reply.heard
  rw [if_pos ho]
  dsimp only
  cases Queue.report label (job x.memory).outcome with
  | ok v => exact filterMap_remark _
  | error err =>
    dsimp only
    split
    · rw [List.filterMap_append, filterMap_remark]
      exact List.append_nil _
    · rw [List.filterMap_append, filterMap_remark]
      exact List.append_nil _

/-- A submission is its command, and has nothing to add to what that says. -/
theorem submit_eq_command (a : Ambient) {s : Style}
    (hc : x.checkSubmit k width output inputs count = .ok s) (hn : 0 < count) :
    ∃ events,
      let reply := x.command s!"kernel:{k.name}" (kernelJob k s output.id (inputs.map (·.id)) count)
      x.submit a k width output inputs count = { reply with events := events } ∧
      events.filterMap Event.remark? = reply.heard := by
  rw [submit_of_pos a hc hn]
  refine ⟨_, rfl, ?_⟩
  rw [List.filterMap_append, List.filterMap_append, filterMap_ended, List.append_nil]
  cases (x.command s!"kernel:{k.name}" (kernelJob k s output.id (inputs.map (·.id)) count)).result with
  | ok u =>
    dsimp only
    rw [filterMap_measured]
    exact List.append_nil _
  | error f => exact List.append_nil _

theorem command_congr {label : String} {job job' : Job α} (h : job' x.memory = job x.memory) :
    x.command label job' = x.command label job := by
  unfold command Queue.run
  rw [h]

/-- Of a kernel that is submitted no more shows than what its command does to this memory. -/
theorem submit_congr (a : Ambient)
    {f : Style → List (Lane k.output) → List (List (Lane k.input)) → Nat → Kernel.Run k.output}
    (hf : ∀ s out ins n, (f s out ins n).output.length = out.length)
    (h : ∀ s, x.checkSubmit k width output inputs count = .ok s → 0 < count →
      kernelJob { k with apply := f, length_apply := hf } s output.id (inputs.map (·.id)) count x.memory =
        kernelJob k s output.id (inputs.map (·.id)) count x.memory) :
    x.submit a { k with apply := f, length_apply := hf } width output inputs count =
      x.submit a k width output inputs count := by
  have hcheck : x.checkSubmit { k with apply := f, length_apply := hf } width output inputs count =
      x.checkSubmit k width output inputs count := rfl
  unfold submit
  rw [hcheck]
  cases hc : x.checkSubmit k width output inputs count with
  | error err => rfl
  | ok s =>
    dsimp only
    by_cases hz : count = 0
    · rw [if_pos hz, if_pos hz]
    · rw [if_neg hz, if_neg hz, command_congr (h s hc (Nat.pos_of_ne_zero hz))]

namespace InOrder

variable (h : x.InOrder l)
include h

theorem checkLive_iff {t : AnyHandle} (ht : t ∈ l.issued) :
    x.checkLive t.handle = .ok () ↔ t ∈ l.heldBy x.id := by
  rw [checkLive_eq_ok_iff, Ledger.mem_heldBy, and_comm]
  constructor
  · rintro ⟨hc, ho⟩
    exact ⟨(h.serves.contains_iff h.ledger ht ho).mp hc, ho⟩
  · rintro ⟨hh, ho⟩
    exact ⟨(h.serves.contains_iff h.ledger ht ho).mpr hh, ho⟩

section
variable (hi : ∀ t ∈ (Call.submit k width output inputs count).handles, t ∈ l.issued)
include hi

theorem checkSubmit_iff {s : Style} : x.checkSubmit k width output inputs count = .ok s ↔
    Style.accelerator k.input width = .ok s ∧
      Submittable (l.heldBy x.id) k width output inputs count := by
  obtain ⟨hout, hins⟩ := Call.forall_handles_submit hi
  rw [checkSubmit_eq_ok_iff h.ready]
  refine and_congr_right fun hs => ?_
  constructor
  · rintro ⟨ho, hg, hno, hni⟩
    obtain ⟨hpos, hdvd⟩ := Style.exists_ofWidth_iff.mp ⟨s, hs⟩
    exact {
      width_pos := hpos
      bits_dvd := hdvd
      output_mem := (h.checkLive_iff hout).mp ho
      inputs_mem := fun g hgm => (h.checkLive_iff (hins g hgm)).mp (hg g hgm).1
      apart := fun g hgm => (hg g hgm).2
      output_le := hno
      inputs_le := hni }
  · intro hv
    exact ⟨(h.checkLive_iff hout).mpr hv.output_mem,
      fun g hg => ⟨(h.checkLive_iff (hins g hg)).mpr (hv.inputs_mem g hg), hv.apart g hg⟩,
      hv.output_le, hv.inputs_le⟩

theorem exists_checkSubmit (hv : Submittable (l.heldBy x.id) k width output inputs count) :
    ∃ s, Style.accelerator k.input width = .ok s ∧
      x.checkSubmit k width output inputs count = .ok s := by
  obtain ⟨s, hs⟩ := Style.exists_ofWidth_iff.mpr ⟨hv.width_pos, hv.bits_dvd⟩
  exact ⟨s, hs, (h.checkSubmit_iff hi).mpr ⟨hs, hv⟩⟩

theorem submit_of_not_submittable (a : Ambient)
    (hv : ¬ Submittable (l.heldBy x.id) k width output inputs count) :
    x.Refuses (x.submit a k width output inputs count) := by
  cases hc : x.checkSubmit k width output inputs count with
  | error err => exact submit_refuses h.ready a hc
  | ok s => exact absurd ((h.checkSubmit_iff hi).mp hc).2 hv

theorem submit_of_count_zero (a : Ambient)
    (hv : Submittable (l.heldBy x.id) k width output inputs count) (hz : count = 0) :
    x.submit a k width output inputs count = ⟨x, .ok (), []⟩ := by
  obtain ⟨s, -, hc⟩ := h.exists_checkSubmit hi hv
  subst hz
  exact submit_zero a hc

end

/-- The command of a submission calls the kernel once and puts the output back as the call leaves it. -/
theorem kernelJob_eq (hv : Submittable (l.heldBy x.id) k width output inputs count) (s : Style) :
    ∃ b, x.memory.Holds output b ∧
      kernelJob k s output.id (inputs.map (·.id)) count x.memory =
        ⟨x.memory.restore output.id (b.store (x.store.apply k s output inputs count).output),
          (x.store.apply k s output inputs count).outcome,
          (x.store.apply k s output inputs count).notes⟩ := by
  obtain ⟨b, hb⟩ := h.holds hv.output_mem
  obtain ⟨bs, hbs⟩ := h.sound.holdAll (fun g hg => h.knows (hv.inputs_mem g hg))
    fun g hg => h.checkLive (hv.inputs_mem g hg)
  have hjob := hb.kernelJob (s := s) hbs hv.apart hv.output_le hv.inputs_le
  rw [← hb.take_contents hv.output_le, ← hbs.map_contents hv.inputs_le] at hjob
  exact ⟨b, hb, hjob⟩

theorem length_apply (hv : Submittable (l.heldBy x.id) k width output inputs count) (s : Style) :
    (x.store.apply k s output inputs count).output.length = count := by
  refine (k.length_apply ..).trans ?_
  rw [List.length_take, h.length_store hv.output_mem]
  exact Nat.min_eq_left hv.output_le

section
variable (hi : ∀ t ∈ (Call.submit k width output inputs count).handles, t ∈ l.issued)
include hi

/-- What is submittable calls the kernel once; it says what the call says, and the output starts with
what the call leaves of it. -/
theorem submit (a : Ambient) (hv : Submittable (l.heldBy x.id) k width output inputs count)
    (hn : 0 < count) :
    ∃ s, Style.accelerator k.input width = .ok s ∧
      let run := x.store.apply k s output inputs count
      let r := x.submit a k width output inputs count
      r.heard = run.notes ∧
      r.result = .ofExcept (Queue.report s!"kernel:{k.name}" run.outcome) ∧
      (∀ t ∈ l.heldBy x.id, r.executor.store t = Function.update x.store ⟨k.output, output⟩
        (run.output ++ (x.store ⟨k.output, output⟩).drop count) t) ∧
      x.memory.SameBut r.executor.memory output.id (count * k.output.bytes) := by
  obtain ⟨s, hs, hc⟩ := h.exists_checkSubmit hi hv
  obtain ⟨b, hb, hjob⟩ := h.kernelJob_eq hv s
  have hlen := h.length_apply hv s
  have hle := Nat.le_trans (Nat.le_of_eq hlen) hv.output_le
  have hopen := h.sound.open_of_ready h.ready
  obtain ⟨events, hsubmit, hevents⟩ := submit_eq_command a hc hn
  have hmem : (x.submit a k width output inputs count).executor.memory =
      x.memory.restore output.id (b.store (x.store.apply k s output inputs count).output) := by
    rw [hsubmit, command_executor h.ready hopen, hjob]
  refine ⟨s, hs, ?_, ?_, fun t ht => ?_, ?_⟩
  · rw [hsubmit]
    exact hevents.trans ((heard_command hopen ..).trans (congrArg Done.notes hjob))
  · rw [hsubmit]
    refine (command_result hopen ..).trans ?_
    rw [hjob]
  · have hstore := h.store_restore hv.output_mem hb hle ht
    rw [hlen] at hstore
    exact (congrArg (fun m : Memory => m.contents t.handle) hmem).trans hstore
  · have hsame := hb.sameBut_store hle
    rw [hlen] at hsame
    rw [hmem]
    exact hsame

/-- Only the call that a submission makes decides what comes of it. -/
theorem submit_eq_of_apply_eq (a : Ambient)
    {f : Style → List (Lane k.output) → List (List (Lane k.input)) → Nat → Kernel.Run k.output}
    (hf : ∀ s out ins n, (f s out ins n).output.length = out.length)
    (heq : ∀ s, Submittable (l.heldBy x.id) k width output inputs count → 0 < count →
      Style.accelerator k.input width = .ok s →
      x.store.apply { k with apply := f, length_apply := hf } s output inputs count =
        x.store.apply k s output inputs count) :
    x.submit a { k with apply := f, length_apply := hf } width output inputs count =
      x.submit a k width output inputs count := by
  refine submit_congr a hf fun s hc hn => ?_
  obtain ⟨hs, hv⟩ := (h.checkSubmit_iff hi).mp hc
  obtain ⟨b, hb, hjob⟩ := h.kernelJob_eq hv s
  have hv' : Submittable (l.heldBy x.id) { k with apply := f, length_apply := hf } width output inputs
      count := ⟨hv.width_pos, hv.bits_dvd, hv.output_mem, hv.inputs_mem, hv.apart, hv.output_le, hv.inputs_le⟩
  obtain ⟨b', hb', hjob'⟩ := h.kernelJob_eq hv' s
  have hbb : b' = b := Option.some.inj (hb'.find.symm.trans hb.find)
  rw [heq s hv hn hs, hbb] at hjob'
  exact hjob'.trans hjob.symm

/-- Whatever becomes of it, a submission leaves everything but the first elements of the output. -/
theorem sameBut_submit (a : Ambient) :
    x.memory.SameBut (x.submit a k width output inputs count).executor.memory output.id
      (count * k.output.bytes) := by
  by_cases hv : Submittable (l.heldBy x.id) k width output inputs count
  · rcases Nat.eq_zero_or_pos count with hz | hn
    · rw [h.submit_of_count_zero hi a hv hz]
      exact .refl ..
    · obtain ⟨s, -, -, -, -, hsame⟩ := h.submit hi a hv hn
      exact hsame
  · obtain ⟨err, -, hr⟩ := h.submit_of_not_submittable hi a hv
    rw [hr]
    exact .refl ..

end

end InOrder

end Executor

namespace World

variable {w : World}

/-- **A submission is confined, whatever its kernel does.**  All that was live is live as it was, with the
same counters, and nothing but the first elements of the output differs.  The kernel is called when the
submission finds what it needs and there is something to do, and then once: with the style of the
synthesized logic, the first elements of the inputs in their order, and those of the output, which
afterwards are what the kernel made of them.  Of the kernel nothing but this call shows. -/
theorem submission_confined (hw : w.Reachable) {i : Nat} {x : Executor}
    (hx : w.fleet.find? i = some x) (hr : x.state = .ready) (a : Ambient) (k : Kernel) (width : Nat)
    (output : Handle k.output) (inputs : List (Handle k.input)) (count : Nat)
    (hi : ∀ t ∈ (Call.submit k width output inputs count).handles, t ∈ w.ledger.issued) :
    let r := x.submit a k width output inputs count
    let submittable := Submittable (w.ledger.heldBy i) k width output inputs count
    x.memory.SameBut r.executor.memory output.id (count * k.output.bytes) ∧
    x.memory.SameCounters r.executor.memory ∧
    (¬ submittable → x.Refuses r ∧ r.heard = []) ∧
    (submittable → count = 0 → r = ⟨x, .ok (), []⟩) ∧
    (submittable → 0 < count →
      ∃ s : Style, s.element = k.input ∧ s.tag = Style.logicTag ∧ s.width = width ∧
        let run := x.store.apply k s output inputs count
        r.heard = run.notes ∧
        r.result = .ofExcept (Queue.report s!"kernel:{k.name}" run.outcome) ∧
        ∀ t ∈ w.ledger.heldBy i, r.executor.store t =
          Function.update x.store ⟨k.output, output⟩
            (run.output ++ (x.store ⟨k.output, output⟩).drop count) t) ∧
    ∀ (f : Style → List (Lane k.output) → List (List (Lane k.input)) → Nat → Kernel.Run k.output) hf,
      (∀ s : Style, submittable → 0 < count →
        s.element = k.input → s.tag = Style.logicTag → s.width = width →
        x.store.apply { k with apply := f, length_apply := hf } s output inputs count =
          x.store.apply k s output inputs count) →
      x.submit a { k with apply := f, length_apply := hf } width output inputs count = r := by
  obtain ⟨ho, rfl⟩ := hw.inOrder hx hr
  have hcounters := (ho.sound.goes_submit hr a k width output inputs count).rewrites.sameCounters
  refine ⟨ho.sameBut_submit hi a, hcounters, fun hv => ?_, fun hv hz => ho.submit_of_count_zero hi a hv hz,
    fun hv hn => ?_, fun f hf heq => ho.submit_eq_of_apply_eq hi a hf fun s hv hn hs => ?_⟩
  · obtain ⟨err, he, hrefused⟩ := ho.submit_of_not_submittable hi a hv
    exact ⟨⟨err, he, hrefused⟩, congrArg Reply.heard hrefused⟩
  · obtain ⟨s, hs, hheard, hres, hstore, -⟩ := ho.submit hi a hv hn
    obtain ⟨he, ht, hwidth⟩ := Style.ofWidth_eq_ok_iff.mp hs
    exact ⟨s, he, ht, hwidth, hheard, hres, hstore⟩
  · obtain ⟨he, ht, hwidth⟩ := Style.ofWidth_eq_ok_iff.mp hs
    exact heq s hv hn he ht hwidth

/-- writes over everything, says so and crashes -/
def faltering : Kernel where
  name := "faltering"
  input := .u8
  output := .u8
  apply _ out ins _ :=
    ⟨out.map fun _ => 1, .error (.crash .wordless), [⟨"faltered", .trace, [("inputs", .natural ins.length)]⟩]⟩
  length_apply _ _ _ _ := List.length_map _

/-- What a kernel wrote before it crashed stays, in the two elements that it was given. -/
theorem submission_confined_faltering :
    pair.Reachable ∧ pair.fleet.find? 1 = some pairExecutor ∧ pairExecutor.state = .ready ∧
      let r := pairExecutor.submit .plain faltering 8 sampleHandle [visibleHandle, visibleHandle] 2
      r.executor.store ⟨.u8, sampleHandle⟩ = [1, 1, 0, 0] ∧
      r.executor.store ⟨.u8, visibleHandle⟩ = [0, 0, 0, 0] ∧
      r.heard = [⟨"faltered", .trace, [("inputs", .natural 2)]⟩] := by
  have hissued : ∀ t ∈ (Call.submit faltering 8 sampleHandle [visibleHandle, visibleHandle] 2).handles,
      t ∈ pair.ledger.issued := by decide
  obtain ⟨hsample, hvis⟩ := held_pair
  have hv : Submittable (pair.ledger.heldBy 1) faltering 8 sampleHandle [visibleHandle, visibleHandle] 2 :=
    { width_pos := by decide
      bits_dvd := by decide
      output_mem := hsample
      inputs_mem := by decide
      apart := by decide
      output_le := by decide
      inputs_le := by decide }
  obtain ⟨-, -, -, -, hcalled, -⟩ := submission_confined reachable_pair find?_pair rfl .plain faltering 8
    sampleHandle [visibleHandle, visibleHandle] 2 hissued
  obtain ⟨s, -, -, -, hheard, -, hstore⟩ := hcalled hv (by decide)
  exact ⟨reachable_pair, find?_pair, rfl, hstore _ hsample, hstore _ hvis, hheard⟩

end World

end Accelerator

end Offload
