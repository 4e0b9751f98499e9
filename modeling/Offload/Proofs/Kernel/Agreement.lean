import Offload.Proofs.Accelerator.Submission
import Offload.Proofs.Extension.Table
import Offload.Proofs.Kernel.Lanewise

/-!
# One kernel on two executors

The host runs a kernel on whole slices, the accelerator on the first elements of buffers.  For the
kernels that come with them that is the same.

* `Kernel.Uniform`     no style shows in what a kernel computes, and nothing behind the elements that are
                       asked for;
* `Kernel.answer`, `Kernel.leaves`  what comes of such a kernel by lengths alone, and its output after it;
* `Host.Executor.submit_uniform`, `InOrder.submit_uniform`  both executors do just that;
* `InOrder.load_named` the buffers of a submission, loaded with what a host would be given;
* `Kernel.Reference`   the kernels that come with the executors; they are uniform;
* `executors_agree`    so the two can be exchanged for each other.
-/

namespace Offload

namespace Kernel

/-! ## uniform kernels -/

/-- a slice that is too short, the output before the inputs -/
def short? (output : Nat) (inputs : List Nat) (count : Nat) : Option Nat :=
  (output :: inputs).find? (· < count)

theorem short?_eq_none {output count : Nat} {inputs : List Nat} :
    short? output inputs count = none ↔ count ≤ output ∧ ∀ len ∈ inputs, count ≤ len := by
  unfold short?
  rw [List.find?_eq_none, List.forall_mem_cons]
  simp only [decide_eq_true_eq, Nat.not_lt]

variable {k : Kernel} {arity : Nat}
  {final : List (Lane k.output) → List (List (Lane k.input)) → Nat → List (Lane k.output)}

/-- On slices that are long enough the number of inputs tells the outcome and `final` the output, with
every style; and on the first elements alone it is the same. -/
structure Uniform (k : Kernel) (arity : Nat)
    (final : List (Lane k.output) → List (List (Lane k.input)) → Nat → List (Lane k.output)) :
    Prop where
  outcome_eq : ∀ {s : Style} {out ins count},
    count ≤ out.length → (∀ xs ∈ ins, count ≤ xs.length) → count + s.lanes ≤ Size.limit →
      (k.apply s out ins count).outcome = arityOutcome k.name arity ins.length
  output_eq : ∀ {s : Style} {out ins count},
    count ≤ out.length → (∀ xs ∈ ins, count ≤ xs.length) → count + s.lanes ≤ Size.limit →
      (k.apply s out ins count).output = final out ins count
  front : ∀ out ins count,
    final (out.take count) (ins.map (·.take count)) count ++ out.drop count = final out ins count

/-- what comes of a kernel: the first slice that is too short decides, and then the number of inputs, if
there is anything to do -/
def answer (k : Kernel) (arity output : Nat) (inputs : List Nat) (count : Nat) : Outcome Unit :=
  match short? output inputs count with
  | some len => .error (.error (.bufferOutOfBounds count len))
  | none => if count = 0 then .ok () else arityOutcome k.name arity inputs.length

/-- what is left in the output then -/
def leaves (final : List (Lane k.output) → List (List (Lane k.input)) → Nat → List (Lane k.output))
    (out : List (Lane k.output)) (ins : List (List (Lane k.input))) (count : Nat) :
    List (Lane k.output) :=
  match short? out.length (ins.map (·.length)) count with
  | some _ => out
  | none => if count = 0 then out else final out ins count

/-- On the first elements alone a uniform kernel does what it does on whole slices. -/
theorem Uniform.apply_take (hk : k.Uniform arity final) {s : Style} {out : List (Lane k.output)}
    {ins : List (List (Lane k.input))} {count : Nat} (hout : count ≤ out.length)
    (hins : ∀ xs ∈ ins, count ≤ xs.length) (hlimit : count + s.lanes ≤ Size.limit) :
    (k.apply s (out.take count) (ins.map (·.take count)) count).outcome =
        arityOutcome k.name arity ins.length ∧
      (k.apply s (out.take count) (ins.map (·.take count)) count).output ++ out.drop count =
        final out ins count := by
  have htake : count ≤ (out.take count).length := by
    rw [List.length_take]
    exact Nat.le_min.mpr ⟨Nat.le_refl _, hout⟩
  have htakes : ∀ xs ∈ ins.map (·.take count), count ≤ xs.length := by
    rw [List.forall_mem_map]
    intro xs hxs
    rw [List.length_take]
    exact Nat.le_min.mpr ⟨Nat.le_refl _, hins xs hxs⟩
  constructor
  · rw [hk.outcome_eq htake htakes hlimit, List.length_map]
  · rw [hk.output_eq htake htakes hlimit, hk.front]

theorem answer_zero (k : Kernel) (arity output : Nat) (inputs : List Nat) :
    k.answer arity output inputs 0 = .ok () := by
  have hf : short? output inputs 0 = none :=
    short?_eq_none.mpr ⟨Nat.zero_le _, fun _ _ => Nat.zero_le _⟩
  unfold answer
  rw [hf]
  exact if_pos rfl

theorem check_of_element {s : Style} (hs : s.element = k.input) (output : Nat) (inputs : List Nat)
    (count : Nat) :
    k.check s output inputs count =
      match short? output inputs count with
      | some len => .error (.bufferOutOfBounds count len)
      | none => .ok () := by
  unfold check
  rw [if_neg (not_not_intro hs)]
  rfl

end Kernel

section
variable {k : Kernel} {arity count : Nat} {s : Style}
  {final : List (Lane k.output) → List (List (Lane k.input)) → Nat → List (Lane k.output)}

/-! ## on the host -/

/-- On the host a uniform kernel answers by lengths alone, with every style of the table. -/
theorem Host.Executor.submit_uniform (hk : k.Uniform arity final) (x : Host.Executor) (a : Ambient)
    (hs : s ∈ x.table.styles k.input) (hw : s.width < Size.limit) {out : List (Lane k.output)}
    (ho : out.length < Block.layoutLimit) (ins : List (List (Lane k.input))) (count : Nat) :
    (x.submit a k s out ins count).outcome = k.answer arity out.length (ins.map (·.length)) count ∧
      (x.submit a k s out ins count).output = Kernel.leaves final out ins count := by
  have hcheck : x.check k s out.length (ins.map (·.length)) count =
      match Kernel.short? out.length (ins.map (·.length)) count with
      | some len => .error (.bufferOutOfBounds count len)
      | none => .ok () := by
    unfold check
    rw [checkStyle_of_mem hs]
    exact Kernel.check_of_element (Table.element_of_mem hs) ..
  unfold submit Kernel.answer Kernel.leaves
  rw [hcheck]
  cases hf : Kernel.short? out.length (ins.map (·.length)) count with
  | some len => exact ⟨rfl, rfl⟩
  | none =>
    obtain ⟨hout, hins⟩ := Kernel.short?_eq_none.mp hf
    rw [List.forall_mem_map] at hins
    have hlimit := Nat.le_of_lt (Style.add_lanes_lt hw (Nat.lt_of_le_of_lt hout ho))
    dsimp only
    by_cases hz : count = 0
    · rw [if_pos hz, if_pos hz, if_pos hz]
      exact ⟨rfl, rfl⟩
    · rw [if_neg hz, if_neg hz, if_neg hz, List.length_map]
      exact ⟨hk.outcome_eq hout hins hlimit, hk.output_eq hout hins hlimit⟩

/-! ## on the accelerator -/

namespace Accelerator

theorem report_arityOutcome (label name : String) (arity inputs : Nat) :
    Outcome.ofExcept (Queue.report label (Kernel.arityOutcome name arity inputs)) =
      Kernel.arityOutcome name arity inputs := by
  unfold Kernel.arityOutcome
  split <;> rfl

theorem Lifecycle.after_answer (k : Kernel) (arity output : Nat) (inputs : List Nat) (count : Nat) :
    Lifecycle.after (k.answer arity output inputs count) = .ready := by
  unfold Kernel.answer
  cases Kernel.short? output inputs count with
  | some len => rfl
  | none =>
    dsimp only
    split
    · rfl
    · unfold Kernel.arityOutcome
      split <;> rfl

/-- the handles that a submission is given -/
def named (output : Handle k.output) (inputs : List (Handle k.input)) : List AnyHandle :=
  ⟨k.output, output⟩ :: inputs.map (⟨k.input, ·⟩)

namespace Executor.InOrder

variable {x : Executor} {l : Ledger} (h : x.InOrder l) {output : Handle k.output}
  {inputs : List (Handle k.input)} {width : Nat}
  (hheld : ∀ t ∈ named output inputs, t ∈ l.heldBy x.id) (hapart : ∀ g ∈ inputs, g.id ≠ output.id)
  (hpos : 0 < width) (hdvd : k.input.bits ∣ width)
include h hheld hapart hpos hdvd

/-- With handles that are held nothing but lengths can stop a submission. -/
theorem checkSubmit_of_held (count : Nat) :
    x.checkSubmit k width output inputs count =
      match Kernel.short? output.length (inputs.map (·.length)) count with
      | some len => .error (.bufferOutOfBounds count len)
      | none => .ok ⟨k.input, Style.logicTag, width, hpos, hdvd⟩ := by
  have hs : Style.accelerator k.input width = .ok ⟨k.input, Style.logicTag, width, hpos, hdvd⟩ :=
    dif_pos ⟨hpos, hdvd⟩
  have hin : x.checkInputs output.id inputs = .ok () := by
    rw [checkInputs_eq_ok_iff]
    intro g hg
    exact ⟨h.checkLive (hheld ⟨k.input, g⟩ (List.mem_cons_of_mem _ (List.mem_map_of_mem hg))),
      hapart g hg⟩
  have hout : x.checkLive output = .ok () := h.checkLive (hheld ⟨k.output, output⟩ List.mem_cons_self)
  unfold checkSubmit
  rw [checkReady_of_ready h.ready, hs]
  dsimp only
  rw [hout, hin]
  dsimp only
  rw [Kernel.check_of_element rfl]
  cases Kernel.short? output.length (inputs.map (·.length)) count <;> rfl

/-- On the accelerator a uniform kernel answers by lengths alone, with every width. -/
theorem submit_uniform (hk : k.Uniform arity final) (a : Ambient) (hw : width < Size.limit)
    {out : List (Lane k.output)} {ins : List (List (Lane k.input))}
    (hout : x.store ⟨k.output, output⟩ = out) (hins : (inputs.map fun g => x.store ⟨k.input, g⟩) = ins)
    (ho : out.length < Block.layoutLimit) (count : Nat) :
    (x.submit a k width output inputs count).result =
      k.answer arity out.length (ins.map (·.length)) count ∧
    (x.submit a k width output inputs count).executor.state = .ready ∧
    (x.submit a k width output inputs count).executor.store ⟨k.output, output⟩ =
      Kernel.leaves final out ins count := by
  have hmem : (⟨k.output, output⟩ : AnyHandle) ∈ l.heldBy x.id := hheld _ List.mem_cons_self
  have hmems : ∀ g ∈ inputs, (⟨k.input, g⟩ : AnyHandle) ∈ l.heldBy x.id := fun g hg =>
    hheld _ (List.mem_cons_of_mem _ (List.mem_map_of_mem hg))
  have hlen : output.length = out.length := hout ▸ (h.length_store hmem).symm
  have hlens : inputs.map (·.length) = ins.map (·.length) := by
    rw [← hins, List.map_map]
    exact (List.map_congr_left fun g hg => h.length_store (hmems g hg)).symm
  have hi : ∀ t ∈ (Call.submit k width output inputs count).handles, t ∈ l.issued :=
    fun t ht => h.issued (hheld t ht)
  have hcheck := h.checkSubmit_of_held hheld hapart hpos hdvd count
  rw [hlen, hlens] at hcheck
  have hres : (x.submit a k width output inputs count).result =
        k.answer arity out.length (ins.map (·.length)) count ∧
      (x.submit a k width output inputs count).executor.store ⟨k.output, output⟩ =
        Kernel.leaves final out ins count := by
    unfold Kernel.answer Kernel.leaves
    cases hf : Kernel.short? out.length (ins.map (·.length)) count with
    | some len =>
      rw [hf] at hcheck
      rw [Executor.submit_of_error a hcheck]
      exact ⟨rfl, hout⟩
    | none =>
      obtain ⟨hno, hni⟩ := Kernel.short?_eq_none.mp hf
      have hv : Submittable (l.heldBy x.id) k width output inputs count :=
        ⟨hpos, hdvd, hmem, hmems, hapart, hlen ▸ hno, List.forall_mem_map.mp (hlens ▸ hni)⟩
      dsimp only
      by_cases hz : count = 0
      · rw [if_pos hz, if_pos hz, h.submit_of_count_zero hi a hv hz]
        exact ⟨rfl, hout⟩
      · rw [if_neg hz, if_neg hz, List.length_map]
        obtain ⟨s, hs, -, hresult, hstore, -⟩ := h.submit hi a hv (Nat.pos_of_ne_zero hz)
        obtain ⟨-, -, rfl⟩ := Style.ofWidth_eq_ok_iff.mp hs
        have hlimit := Nat.le_of_lt (Style.add_lanes_lt hw (Nat.lt_of_le_of_lt hno ho))
        have hrun : x.store.apply k s output inputs count =
            k.apply s (out.take count) (ins.map (·.take count)) count := by
          unfold Store.apply
          rw [hout, ← hins, List.map_map]
          rfl
        obtain ⟨houtcome, houtput⟩ := hk.apply_take hno (List.forall_mem_map.mp hni) hlimit
        have hafter := hstore _ hmem
        rw [Function.update_self, hrun, hout, houtput] at hafter
        rw [hrun, houtcome, report_arityOutcome] at hresult
        exact ⟨hresult, hafter⟩
  refine ⟨hres.1, ?_, hres.2⟩
  rw [(h.sound.goes_submit h.ready a k width output inputs count).state_eq, hres.1]
  exact Lifecycle.after_answer ..

omit hapart hpos hdvd in
theorem apart_of_nodup (hd : (named output inputs).Nodup) : ∀ g ∈ inputs, g.id ≠ output.id := by
  obtain ⟨hnot, -⟩ := List.nodup_cons.mp hd
  intro g hg
  have hin : (⟨k.input, g⟩ : AnyHandle) ∈ inputs.map (⟨k.input, ·⟩) := List.mem_map_of_mem hg
  have hne : (⟨k.input, g⟩ : AnyHandle) ≠ ⟨k.output, output⟩ := fun heq => hnot (heq ▸ hin)
  exact h.id_ne (hheld _ (List.mem_cons_of_mem _ hin)) (hheld _ List.mem_cons_self) hne

omit hapart hpos hdvd in
theorem submit_inOrder (a : Ambient) (width count : Nat)
    (hr : (x.submit a k width output inputs count).executor.state = .ready) :
    (x.submit a k width output inputs count).executor.InOrder l ∧
      (x.submit a k width output inputs count).executor.id = x.id := by
  have hi : ∀ t ∈ (Call.submit k width output inputs count).handles, t ∈ l.issued :=
    fun t ht => h.issued (hheld t ht)
  exact h.perform a hi hr

end Executor.InOrder

/-! ## the buffers of a submission -/

/-- what fills the buffers of a submission -/
def loads (output : Handle k.output) (out : List (Lane k.output)) (inputs : List (Handle k.input))
    (ins : List (List (Lane k.input))) : List Load :=
  ⟨⟨k.output, output⟩, out⟩ :: (inputs.zip ins).map fun p => ⟨⟨k.input, p.1⟩, p.2⟩

namespace Executor

variable {x : Executor} {l : Ledger}

theorem InOrder.load_named (h : x.InOrder l) (a : Ambient) {output : Handle k.output}
    {inputs : List (Handle k.input)} {out : List (Lane k.output)} {ins : List (List (Lane k.input))}
    (hheld : ∀ t ∈ named output inputs, t ∈ l.heldBy x.id) (hd : (named output inputs).Nodup)
    (hno : output.length = out.length)
    (hni : List.Forall₂ (fun g xs => g.length = xs.length) inputs ins) :
    ∃ y, x.load a (loads output out inputs ins) = some y ∧ y.InOrder l ∧ y.id = x.id ∧
      y.store ⟨k.output, output⟩ = out ∧ (inputs.map fun g => y.store ⟨k.input, g⟩) = ins := by
  obtain ⟨hlen, hpairs⟩ := List.forall₂_iff_zip.mp hni
  have htargets : (loads output out inputs ins).map Load.target = named output inputs := by
    show _ :: ((inputs.zip ins).map _).map _ = _ :: _
    rw [List.map_map]
    congr 1
    calc (inputs.zip ins).map (fun p => (⟨k.input, p.1⟩ : AnyHandle))
        = ((inputs.zip ins).map Prod.fst).map (⟨k.input, ·⟩) := by rw [List.map_map]; rfl
      _ = inputs.map (⟨k.input, ·⟩) := by rw [List.map_fst_zip (Nat.le_of_eq hlen)]
  have hp : ∀ p ∈ loads output out inputs ins,
      p.target ∈ l.heldBy x.id ∧ p.contents.length = p.target.handle.length := by
    intro p hp
    refine ⟨hheld _ (htargets ▸ List.mem_map_of_mem hp), ?_⟩
    rcases List.mem_cons.mp hp with rfl | hp
    · exact hno.symm
    · obtain ⟨q, hq, rfl⟩ := List.mem_map.mp hp
      exact (hpairs hq).symm
  obtain ⟨y, hload, hy, hid, hall, -⟩ := h.load a hp (htargets ▸ hd)
  refine ⟨y, hload, hy, hid, hall _ List.mem_cons_self, ?_⟩
  calc (inputs.map fun g => y.store ⟨k.input, g⟩)
      = ((inputs.zip ins).map Prod.fst).map fun g => y.store ⟨k.input, g⟩ := by
        rw [List.map_fst_zip (Nat.le_of_eq hlen)]
    _ = (inputs.zip ins).map Prod.snd := by
        rw [List.map_map]
        exact List.map_congr_left fun p hp =>
          hall _ (List.mem_cons_of_mem _ (List.mem_map_of_mem hp))
    _ = ins := List.map_snd_zip (Nat.le_of_eq hlen.symm)

end Executor

end Accelerator

end

/-! ## the kernels that come with the executors -/

namespace Kernel

/-- the kernels and how many inputs they take -/
inductive Reference : Kernel → Nat → Prop
  | sum (e : Element) (add : Lane e → Lane e → Lane e) : Reference (.sumBy e add) 2
  | leadingZeros : Reference .leadingZeros 1

theorem Lanewise.uniform {k : Kernel} {arity : Nat} {value : List (List (Lane k.input)) → List (Lane k.output)}
    {remarks : Style → Nat → List Trace.Note} (h : k.Lanewise arity value remarks) :
    k.Uniform arity (finalOutput arity value) where
  outcome_eq ho hi hlimit := (h.apply_of_le ho hi hlimit).1
  output_eq ho hi hlimit := (h.apply_of_le ho hi hlimit).2
  front := h.finalOutput_take

theorem Reference.uniform {k : Kernel} {arity : Nat} (h : Reference k arity) :
    ∃ final, k.Uniform arity final := by
  cases h with
  | sum e add => exact ⟨_, (lanewise_sumBy e add).uniform⟩
  | leadingZeros => exact ⟨_, lanewise_leadingZeros.uniform⟩

end Kernel

open Accelerator

/-- **The host and the accelerator compute the same.**  A kernel that comes with them answers by the
lengths of its slices and leaves the same output, with whatever style of its table a host runs it; and
with whatever width an accelerator does, in whatever buffers of these lengths, when they are loaded with
the same contents and the output is copied back.  The accelerator stays ready. -/
theorem executors_agree {k : Kernel} {arity : Nat} (hk : k.Reference arity) (out : List (Lane k.output))
    (ho : out.length * k.output.bytes < Block.layoutLimit) (ins : List (List (Lane k.input)))
    (count : Nat) :
    (count = 0 → k.answer arity out.length (ins.map (·.length)) count = .ok ()) ∧
    ∃ final : List (Lane k.output),
      (∀ (x : Host.Executor) (a : Ambient) (s : Style), s ∈ x.table.styles k.input →
        s.width < Size.limit →
        (x.submit a k s out ins count).outcome =
            k.answer arity out.length (ins.map (·.length)) count ∧
          (x.submit a k s out ins count).output = final) ∧
      ∀ (w : World) (i : Nat) (x : Accelerator.Executor), w.Reachable → w.fleet.find? i = some x →
        x.state = .ready →
        ∀ (output : Handle k.output) (inputs : List (Handle k.input)),
          (∀ t ∈ named output inputs, t ∈ w.ledger.heldBy i) → (named output inputs).Nodup →
          output.length = out.length → List.Forall₂ (fun g xs => g.length = xs.length) inputs ins →
          ∀ width, 0 < width → k.input.bits ∣ width → width < Size.limit → ∀ a b c : Ambient,
            ∃ y, x.load a (loads output out inputs ins) = some y ∧
              let r := y.submit b k width output inputs count
              r.result = k.answer arity out.length (ins.map (·.length)) count ∧
              r.executor.state = .ready ∧
              ∀ target : List (Lane k.output), target.length = out.length →
                let back := r.executor.copy c (.host target) (.device output) out.length
                back.2.result = .ok () ∧ back.1 = .host final := by
  obtain ⟨final, hu⟩ := hk.uniform
  have hlen : out.length < Block.layoutLimit :=
    Nat.lt_of_le_of_lt (Nat.le_mul_of_pos_right _ k.output.bytes_pos) ho
  refine ⟨fun hz => hz ▸ k.answer_zero .., Kernel.leaves final out ins count,
    fun x a s hs hw => Host.Executor.submit_uniform hu x a hs hw hlen ins count, ?_⟩
  intro w i x hw hx hr output inputs hheld hnodup hno hni width hpos hdvd hlt a b c
  obtain ⟨h, rfl⟩ := hw.inOrder hx hr
  obtain ⟨y, hload, hy, hyid, hout, hins⟩ := h.load_named a hheld hnodup hno hni
  rw [← hyid] at hheld
  have hapart := hy.apart_of_nodup hheld hnodup
  obtain ⟨hres, hready, hstore⟩ :=
    hy.submit_uniform hheld hapart hpos hdvd hu b hlt hout hins hlen count
  obtain ⟨hz, hzid⟩ := hy.submit_inOrder hheld b width count hready
  refine ⟨y, hload, hres, hready, fun target ht => ?_⟩
  have hmem : (⟨k.output, output⟩ : AnyHandle) ∈
      w.ledger.heldBy (y.submit b k width output inputs count).executor.id := by
    rw [hzid]
    exact hheld _ List.mem_cons_self
  rw [← hstore, ← hno]
  exact hz.copy_whole c hmem (ht.trans hno.symm)

/-- three buffers of four elements -/
def trio : World := (World.pair.run [.call 1 .plain (.allocate .u8 4 .hostVisible 0)]).get rfl

/-- Three out of four sums, with wrapping, by a scalar host and by an accelerator of four lanes. -/
theorem executors_agree_sum :
    trio.Reachable ∧ ∃ x, trio.fleet.find? 1 = some x ∧ x.state = .ready ∧
      let k := Kernel.sum .u8
      let output : Handle k.output := World.sampleHandle
      let inputs : List (Handle k.input) := [World.visibleHandle, ⟨3, 4, .hostVisible, 1⟩]
      let out : List (Lane k.output) := [7, 7, 7, 7]
      let ins : List (List (Lane k.input)) := [[250, 2, 3, 4], [10, 20, 30, 40]]
      let host := Host.Executor.submit ⟨.scalarOnly, 0⟩ .plain k (.scalar .u8) out ins 3
      host.outcome = .ok () ∧
      ∃ y, x.load .plain (loads output out inputs ins) = some y ∧
        let r := y.submit .plain k 32 output inputs 3
        r.result = .ok () ∧ r.executor.state = .ready ∧
        (r.executor.copy .plain (.host [0, 0, 0, 0]) (.device output) 4).1 = .host host.output := by
  have hreach : trio.Reachable := World.reachable_pair.run (Option.some_get _).symm
  have hx : trio.fleet.find? 1 = some ((trio.fleet.find? 1).get rfl) := (Option.some_get _).symm
  obtain ⟨-, final, honHost, hon⟩ := executors_agree (.sum .u8 Lane.add) [7, 7, 7, 7] (by decide)
    [[250, 2, 3, 4], [10, 20, 30, 40]] 3
  obtain ⟨hout, hleft⟩ := honHost ⟨.scalarOnly, 0⟩ .plain (.scalar .u8) List.mem_cons_self (by decide)
  have hlengths : List.Forall₂ (fun (g : Handle .u8) (xs : List (Lane .u8)) => g.length = xs.length)
      [World.visibleHandle, ⟨3, 4, .hostVisible, 1⟩] [[250, 2, 3, 4], [10, 20, 30, 40]] :=
    .cons rfl (.cons rfl .nil)
  obtain ⟨y, hload, hres, hready, hback⟩ := hon trio 1 _ hreach hx rfl World.sampleHandle
    [World.visibleHandle, ⟨3, 4, .hostVisible, 1⟩] (by decide) (by decide) rfl hlengths 32 (by decide)
    (by decide) (by decide) .plain .plain .plain
  refine ⟨hreach, _, hx, rfl, hout, y, hload, hres, hready, ?_⟩
  exact (hback [0, 0, 0, 0] rfl).2.trans (congrArg Target.host hleft.symm)

end Offload
