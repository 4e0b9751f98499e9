import Offload.Proofs.Accelerator.World

/-!
# Faults

An executor becomes faulted when a command fails in a way that no kernel asked for.  Commands look at
their operands again, so a handle that says something else than the memory would do it.

* `submit_faults_iff`         with known handles only what a kernel itself does can fault an executor;
* `submit_error`              what becomes of an error of a kernel;
* `no_spurious_faults`        in whatever world the executor is;
* `error_kind_tells_effect`   the kind of an error says what the call has done.
-/

namespace Offload

theorem Error.ne_typeMismatch_of_refuses {err : Error} (h : err.refuses = true)
    (expected actual : String) : err ≠ .typeMismatch expected actual := by
  rintro rfl
  cases h

namespace Accelerator

/-- A command leaves an executor faulted if it fails other than by a kernel's own refusal. -/
theorem Queue.faulted_iff {α : Type} (label : String) (o : Outcome α) :
    (∃ m, Lifecycle.after (.ofExcept (report label o) : Outcome α) = .faulted m) ↔ Faulty o := by
  rcases report_cases label o with ⟨v, ho, h⟩ | ⟨err, ho, hk, h⟩ | ⟨hf, text, h⟩
  · rw [h, ho]
    exact ⟨fun ⟨m, hm⟩ => (nomatch hm), fun hf => hf.elim⟩
  · rw [h, ho]
    obtain ⟨name, text, rfl⟩ := Error.eq_kernel_of_kind hk
    exact ⟨fun ⟨m, hm⟩ => (nomatch hm), fun hf => absurd rfl hf⟩
  · rw [h]
    exact ⟨fun _ => hf, fun _ => ⟨_, rfl⟩⟩

namespace Executor

variable {x : Executor}

/-- What a call that failed with an error has done, by the kind of the error. -/
structure Told (x : Executor) (c : Call) (err : Error) (y : Executor) : Prop where
  nothing : err.kind = .configuration ∨ err.kind = .resourceExhaustion ∨
    err.kind = .contractViolation → y = x
  /-- The executor is ready, as it was, and only the first elements of the output can differ. -/
  kernel : err.kind = .kernel → ∃ k width output inputs count m,
    c = .submit k width output inputs count ∧
    x.memory.SameBut m output.id (count * k.output.bytes) ∧
    y = { x with queue := x.queue.record s!"kernel:{k.name}", memory := m }
  fault : err.kind = .deviceFault → ∃ k width output inputs count,
    c = .submit k width output inputs count ∧
    (∃ text, err = .deviceFault s!"kernel:{k.name}" text) ∧
    y.state = .faulted err.message

theorem Refuses.told {c : Call} {r : Reply c.Value} (h : x.Refuses r) {err : Error}
    (he : r.result = .error (.error err)) : x.Told c err r.executor := by
  obtain ⟨er, her, rfl⟩ := h
  cases he
  refine ⟨fun _ => rfl, fun h => ?_, fun h => ?_⟩
  all_goals
    rcases Error.kind_of_refuses her with hk | hk | hk <;> cases hk.symm.trans h

section
variable (hx : x.Sound) (hr : x.state = .ready)
include hx hr

/-! ## submissions -/

section
variable {k : Kernel} {output : Handle k.output} {inputs : List (Handle k.input)}
  (ho : x.Knows output) (hi : ∀ h ∈ inputs, x.Knows h)
include ho hi

/-- A submission faults the executor if and only if the kernel runs and crashes, or fails with an error
that is not a kernel's. -/
theorem Sound.submit_faults_iff (a : Ambient) (width count : Nat) :
    (∃ m, (x.submit a k width output inputs count).executor.state = .faulted m) ↔
      ∃ s out ins, x.checkSubmit k width output inputs count = .ok s ∧ 0 < count ∧
        x.memory.view output.id k.output count = .ok out ∧
        x.memory.views k.input count (inputs.map (·.id)) = .ok ins ∧
        Queue.Faulty (k.apply s out ins count).outcome := by
  cases hc : x.checkSubmit k width output inputs count with
  | error err =>
    obtain ⟨er, -, h⟩ := submit_refuses hr a hc
    rw [h]
    refine ⟨fun ⟨m, hm⟩ => ?_, fun ⟨s, _, _, hs, _⟩ => (nomatch hs)⟩
    exact nomatch hr.symm.trans hm
  | ok s =>
    rcases Nat.eq_zero_or_pos count with rfl | hn
    · rw [submit_zero a hc]
      refine ⟨fun ⟨m, hm⟩ => ?_, fun ⟨_, _, _, _, hn, _⟩ => absurd hn (Nat.lt_irrefl _)⟩
      exact nomatch hr.symm.trans hm
    · obtain ⟨out, ins, m, hout, hins, -, hres, hexe⟩ := hx.submit_views hr a ho hi hc hn
      rw [hexe, hres, Queue.faulted_iff]
      constructor
      · intro hf
        exact ⟨s, out, ins, rfl, hn, hout, hins, hf⟩
      · rintro ⟨t, out', ins', ht, -, hout', hins', hf⟩
        -- these are the views that the kernel was given
        cases ht
        cases hout.symm.trans hout'
        cases hins.symm.trans hins'
        exact hf

/-- An error of a submission is a refusal, or it comes from the kernel; then nothing but the first
elements of the output can differ. -/
theorem Sound.submit_error (a : Ambient) {width count : Nat} {err : Error}
    (he : (x.submit a k width output inputs count).result = .error (.error err)) :
    x.Refuses (x.submit a k width output inputs count) ∨
    ∃ m, x.memory.SameBut m output.id (count * k.output.bytes) ∧
      (x.submit a k width output inputs count).executor =
        { x with
          queue := x.queue.record s!"kernel:{k.name}"
          memory := m
          state := Lifecycle.after (.error (.error err) : Outcome Unit) } ∧
      (err.kind = .kernel ∨ ∃ text, err = .deviceFault s!"kernel:{k.name}" text) := by
  cases hc : x.checkSubmit k width output inputs count with
  | error er => exact .inl (submit_refuses hr a hc)
  | ok s =>
    rcases Nat.eq_zero_or_pos count with rfl | hn
    · rw [submit_zero a hc] at he
      cases he
    · obtain ⟨out, ins, m, -, -, hm, hres, hexe⟩ := hx.submit_views hr a ho hi hc hn
      rw [he] at hexe
      refine .inr ⟨m, hm, hexe, ?_⟩
      rw [he] at hres
      rcases Queue.report_cases s!"kernel:{k.name}" (k.apply s out ins count).outcome with
        ⟨v, -, h⟩ | ⟨er, -, hk, h⟩ | ⟨-, text, h⟩
      · rw [h] at hres
        cases hres
      · rw [h] at hres
        cases hres
        exact .inl hk
      · rw [h] at hres
        cases hres
        exact .inr ⟨text, rfl⟩

end

/-! ## all other calls -/

/-- With known handles every other call leaves a ready executor ready, and fails only with what it is
refused for. -/
theorem Sound.perform_ready (a : Ambient) {c : Call} (hk : ∀ t ∈ c.handles, x.Knows t.handle)
    (hs : c.isSubmit = false) (ht : c.isTeardown = false) :
    (x.perform a c).executor.state = .ready ∧
      (∀ err, (x.perform a c).result = .error (.error err) → x.Refuses (x.perform a c)) ∧
      ∀ f, (x.perform a c).result = .error (.crash f) → c.isUpdate = true := by
  rcases hx.perform_calm hr a hk hs ht with h | ⟨hf, hv⟩
  · obtain ⟨err, he, hp⟩ := h
    rw [hp]
    exact ⟨hr, fun _ _ => ⟨err, he, rfl⟩, fun f hf => (nomatch hf)⟩
  · refine ⟨hf.state_eq, fun err he => absurd he (hf.no_error err), fun f he => ?_⟩
    cases hu : c.isUpdate with
    | true => rfl
    | false =>
      obtain ⟨v, hv⟩ := hv hu
      exact nomatch hv.symm.trans he

omit hr in
/-- A known handle says the class of what it names. -/
theorem Sound.deallocate_class {e : Element} {h : Handle e} (hk : x.Knows h) (id : Nat)
    (expected actual : MemoryClass) :
    (x.deallocate h).result ≠ .error (.error (.wrongMemoryClass id expected actual)) := by
  cases hc : x.checkReady with
  | error err =>
    have hd : x.deallocate h = x.refuse err := by
      unfold Executor.deallocate
      rw [hc]
    rw [hd]
    intro he
    cases he
    unfold checkReady at hc
    split at hc <;> cases hc
  | ok u =>
    rw [hx.deallocate (checkReady_eq_ok_iff.mp hc)]
    by_cases ho : h.owner = x.id
    · rw [if_pos ho]
      cases hf : x.memory.live.find? h.id with
      | none => exact fun he => (nomatch he)
      | some b =>
        simp only [if_neg (not_not_intro (hk ho b hf).space_eq)]
        exact fun he => (nomatch he)
    · rw [if_neg ho]
      exact fun he => (nomatch he)

/-- The kind of an error says what the call did. -/
theorem Sound.told (a : Ambient) {c : Call} (hk : ∀ t ∈ c.handles, x.Knows t.handle) {err : Error}
    (he : (x.perform a c).result = .error (.error err)) : x.Told c err (x.perform a c).executor := by
  cases ht : c.isTeardown with
  | true =>
    cases c <;> cases ht
    have hd : x.perform a .teardown = ⟨x.shutDown.1, .ok (), x.shutDown.2⟩ :=
      teardown_eq fun h => by cases hr.symm.trans h
    cases (congrArg (·.result) hd).symm.trans he
  | false =>
    cases hs : c.isSubmit with
    | false =>
      obtain ⟨-, herr, -⟩ := hx.perform_ready hr a hk hs ht
      exact (herr err he).told he
    | true =>
      cases c with
      | submit k width output inputs count =>
        obtain ⟨hko, hki⟩ := Call.forall_handles_submit hk
        rcases hx.submit_error hr hko hki a he with h | ⟨m, hm, hexe, hkind⟩
        · exact h.told he
        · have hp : (x.perform a (.submit k width output inputs count)).executor = _ := hexe
          rw [hp]
          rcases hkind with hkernel | ⟨text, rfl⟩
          · obtain ⟨name, text, rfl⟩ := Error.eq_kernel_of_kind hkernel
            refine ⟨fun h => ?_, fun _ => ?_, fun h => ?_⟩
            · rcases h with h | h | h <;> cases h
            · refine ⟨k, width, output, inputs, count, m, rfl, hm, ?_⟩
              simp only [Lifecycle.after, ← hr]
            · cases h
          · refine ⟨fun h => ?_, fun h => ?_, fun _ => ?_⟩
            · rcases h with h | h | h <;> cases h
            · cases h
            · exact ⟨k, width, output, inputs, count, rfl, ⟨text, rfl⟩, rfl⟩
      | _ => cases hs

/-- A copy that fails leaves its target as it was. -/
theorem Sound.target_of_error (a : Ambient) {e : Element} {dst : Target e} {src : Source e} {count : Nat}
    (hd : ∀ h, dst = .device h → x.Knows h) (hs : ∀ h, src = .device h → x.Knows h) {f : Failure Error}
    (he : (x.copy a dst src count).2.result = .error f) : (x.copy a dst src count).1 = dst := by
  rcases hx.copy_cases hr a count hd hs with h | ⟨-, hv⟩
  · exact h.2
  · cases hv.symm.trans he

end

end Executor

/-! ## executors in a world -/

namespace World

variable {w : World} {i : Nat} {x : Executor}

/-- **No spurious faults.**  Whatever was done before, what is live in an executor is what the one
handle issued for it says.  So from ready no call but a submission faults it or finds a handle out of
step, and a submission does if and only if it is valid, has something to do, and its kernel crashes or
fails with an error that is not a kernel's. -/
theorem no_spurious_faults (hw : w.Reachable) (hx : w.fleet.find? i = some x) :
    (∀ id b, x.memory.live.find? id = some b →
      ∃ t ∈ w.ledger.issued, t.owner = x.id ∧ t.id = id ∧ b.Matches t.handle ∧
        ∀ s ∈ w.ledger.issued, s.owner = x.id → s.id = id → s = t) ∧
    (x.state = .ready → ∀ (a : Ambient) (c : Call), (∀ t ∈ c.handles, t ∈ w.ledger.issued) →
      c.isSubmit = false → c.isTeardown = false →
      (x.perform a c).executor.state = .ready ∧
      (∀ err, (x.perform a c).result = .error (.error err) →
        err.kind ≠ .deviceFault ∧ ∀ expected actual, err ≠ .typeMismatch expected actual) ∧
      ∀ f, (x.perform a c).result = .error (.crash f) → c.isUpdate = true) ∧
    (∀ e (h : Handle e), ⟨e, h⟩ ∈ w.ledger.issued → ∀ id expected actual,
      (x.deallocate h).result ≠ .error (.error (.wrongMemoryClass id expected actual))) ∧
    (x.state = .ready → ∀ (a : Ambient) (k : Kernel) (width : Nat) (output : Handle k.output)
      (inputs : List (Handle k.input)) (count : Nat),
      (∀ t ∈ (Call.submit k width output inputs count).handles, t ∈ w.ledger.issued) →
      ((∃ m, (x.submit a k width output inputs count).executor.state = .faulted m) ↔
        ∃ s out ins, x.checkSubmit k width output inputs count = .ok s ∧ 0 < count ∧
          x.memory.view output.id k.output count = .ok out ∧
          x.memory.views k.input count (inputs.map (·.id)) = .ok ins ∧
          Queue.Faulty (k.apply s out ins count).outcome)) := by
  have hs := hw.sound
  obtain ⟨-, -, hxs, hserves⟩ := hs.executors hx
  refine ⟨?_, ?_, ?_, ?_⟩
  · intro id b hb
    obtain ⟨t, ht, hid, hm⟩ := hserves.named hb
    obtain ⟨ht, ho⟩ := Ledger.mem_heldBy.mp ht
    have hti := hs.ledger.issued_of_held ht
    refine ⟨t, hti, ho, hid, hm, fun s hsi hso hsid => ?_⟩
    exact hs.ledger.once hsi hti (hso.trans ho.symm) (hsid.trans hid.symm)
  · intro hr a c hi hsub htd
    obtain ⟨hst, herr, hcrash⟩ := hxs.perform_ready hr a (fun t ht => hs.knows hx (hi t ht)) hsub htd
    refine ⟨hst, fun err he => ?_, hcrash⟩
    obtain ⟨er, her, h⟩ := herr err he
    cases (congrArg (·.result) h).symm.trans he
    refine ⟨?_, Error.ne_typeMismatch_of_refuses her⟩
    rcases Error.kind_of_refuses her with hk | hk | hk <;> rw [hk] <;> exact fun h => (nomatch h)
  · exact fun e h hi => hxs.deallocate_class (hs.knows hx hi)
  · intro hr a k width output inputs count hi
    obtain ⟨hko, hki⟩ := Call.forall_handles_submit fun t ht => hs.knows hx (hi t ht)
    exact hxs.submit_faults_iff hr hko hki a width count

/-- To give the allocation back leaves the executor ready, to run a kernel that crashes on it does not. -/
theorem no_spurious_faults_sample : sample.Reachable ∧ sample.fleet.find? 1 = some sampleExecutor ∧
    sampleExecutor.state = .ready ∧ ⟨.u8, sampleHandle⟩ ∈ sample.ledger.issued ∧
    (sampleExecutor.perform .plain (.deallocate .u8 sampleHandle)).executor.state = .ready ∧
    ∃ m, (sampleExecutor.submit .plain (.failing (.crash .wordless)) 8 sampleHandle [] 1).executor.state =
      .faulted m := by
  have hi : (⟨.u8, sampleHandle⟩ : AnyHandle) ∈ sample.ledger.issued := List.mem_cons_self
  obtain ⟨-, hcalm, -, hsubmit⟩ := no_spurious_faults reachable_sample find?_sample
  refine ⟨reachable_sample, find?_sample, rfl, hi, ?_, ?_⟩
  · exact (hcalm rfl .plain (.deallocate .u8 sampleHandle) (List.forall_mem_singleton.mpr hi) rfl rfl).1
  · refine (hsubmit rfl .plain (.failing (.crash .wordless)) 8 sampleHandle [] 1
      (List.forall_mem_singleton.mpr hi)).mpr ?_
    exact ⟨_, _, _, rfl, Nat.one_pos, rfl, rfl, trivial⟩

/-- **The kind of an error tells its effect.**  A call of a ready executor that fails with an error of
use, of configuration or of resources has done nothing.  After a kernel's own error the executor is
ready, and only the first elements of the output can differ.  Any other error is a fault under the
kernel's label, it comes from a submission, and its text is what the executor is then faulted with; an
error that a kernel borrows from the library comes back so, and never raw. -/
theorem error_kind_tells_effect (hw : w.Reachable) (hx : w.fleet.find? i = some x)
    (hr : x.state = .ready) (a : Ambient) :
    (∀ (c : Call) (err : Error), (∀ t ∈ c.handles, t ∈ w.ledger.issued) →
      (x.perform a c).result = .error (.error err) →
      x.Told c err (x.perform a c).executor ∧
      ∀ e dst src count, c = .copy e dst src count → (x.copy a dst src count).1 = dst) ∧
    ∀ (k : Kernel) (width : Nat) (output : Handle k.output) (inputs : List (Handle k.input))
      (count : Nat) (s : Style) (out : List (Lane k.output)) (ins : List (List (Lane k.input)))
      (err : Error),
      (∀ t ∈ (Call.submit k width output inputs count).handles, t ∈ w.ledger.issued) →
      x.checkSubmit k width output inputs count = .ok s → 0 < count →
      x.memory.view output.id k.output count = .ok out →
      x.memory.views k.input count (inputs.map (·.id)) = .ok ins →
      (k.apply s out ins count).outcome = .error (.error err) → err.kind ≠ .kernel →
      (x.submit a k width output inputs count).result =
        .error (.error (.deviceFault s!"kernel:{k.name}" err.message)) := by
  have hs := hw.sound
  obtain ⟨-, -, hxs, -⟩ := hs.executors hx
  constructor
  · intro c err hi he
    have hk : ∀ t ∈ c.handles, x.Knows t.handle := fun t ht => hs.knows hx (hi t ht)
    refine ⟨hxs.told hr a hk he, ?_⟩
    rintro e dst src count rfl
    obtain ⟨hd, hsrc⟩ := Call.forall_handles_copy hk
    exact hxs.target_of_error hr a hd hsrc he
  · intro k width output inputs count s out ins err hi hc hn hout hins herr hkind
    obtain ⟨hko, hki⟩ := Call.forall_handles_submit fun t ht => hs.knows hx (hi t ht)
    obtain ⟨out', ins', m, hout', hins', -, hres, -⟩ := hxs.submit_views hr a hko hki hc hn
    cases hout.symm.trans hout'
    cases hins.symm.trans hins'
    rw [hres, herr, Queue.report_of_error hkind]
    rfl

/-- Memory that the host does not see cannot be read, and a kernel that borrows an error faults. -/
theorem error_kind_tells_effect_sample : sample.Reachable ∧
    sample.fleet.find? 1 = some sampleExecutor ∧ sampleExecutor.state = .ready ∧
    (sampleExecutor.perform .plain (.read .u8 sampleHandle)).result =
      .error (.error (.wrongMemoryClass 1 .hostVisible .deviceExclusive)) ∧
    (sampleExecutor.perform .plain (.read .u8 sampleHandle)).executor = sampleExecutor ∧
    (sampleExecutor.submit .plain (.failing (.error (.invalidHandle 7))) 8 sampleHandle [] 1).result =
      .error (.error (.deviceFault "kernel:failing" "invalid buffer handle: 7")) := by
  have hi : (⟨.u8, sampleHandle⟩ : AnyHandle) ∈ sample.ledger.issued := List.mem_cons_self
  have hall : ∀ t ∈ [(⟨.u8, sampleHandle⟩ : AnyHandle)], t ∈ sample.ledger.issued :=
    List.forall_mem_singleton.mpr hi
  obtain ⟨htold, hraw⟩ := error_kind_tells_effect reachable_sample find?_sample rfl .plain
  refine ⟨reachable_sample, find?_sample, rfl, rfl, ?_, ?_⟩
  · exact (htold (.read .u8 sampleHandle) _ hall rfl).1.nothing (.inr (.inr rfl))
  · exact hraw (.failing (.error (.invalidHandle 7))) 8 sampleHandle [] 1 _ _ _ _ hall rfl Nat.one_pos
      rfl rfl rfl fun h => (nomatch h)

end World

end Accelerator

end Offload
