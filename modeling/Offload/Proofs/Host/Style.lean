import Offload.Kernel.LeadingZeros
import Offload.Proofs.Extension.Origin
import Offload.Proofs.Kernel.Lanewise

/-!
# Which styles a host takes

A host looks at the tag of a style first, and at its table only if that is not the scalar one.  Of the
styles that can be had it takes just those of its table.

* `checkStyle_eq_ok_iff`   it does so wherever the scalar tag stands for one lane;
* `submit_of_checkStyle_ne`  any other style is refused, and nothing else happens;
* `style_check_exact`      all of it, for styles that are given, looked up by lanes or the widest there is;
* `takes_logic_iff`, `logic_style_on_host`  a style of the synthesized logic is taken exactly where a table
                           names one of its extensions so.
-/

namespace Offload.Host.Executor

variable {x : Executor} {s : Style}

theorem checkStyle_eq_ok_iff (h : s.isScalar = true → s = .scalar s.element) :
    x.checkStyle s = .ok () ↔ s ∈ x.table.styles s.element := by
  refine ⟨fun hc => ?_, checkStyle_of_mem⟩
  unfold checkStyle at hc
  by_cases hs : s.isScalar = true
  · exact List.mem_cons.mpr (.inl (h hs))
  rw [if_neg hs] at hc
  split at hc
  · cases hc
  · rename_i r hr
    split at hc
    · rename_i htag
      obtain ⟨hmem, hwidth⟩ := Table.resolveWidth_eq_ok_iff.mp hr
      exact Style.ext_of (Table.element_of_mem hmem) htag hwidth ▸ hmem
    · cases hc

theorem checkStyle_of_ne_ok (h : x.checkStyle s ≠ .ok ()) :
    x.checkStyle s = .error (.unsupportedVectorLength s.element s.width) := by
  unfold checkStyle at h ⊢
  split at h
  · exact absurd rfl h
  · rename_i hs
    rw [if_neg hs]
    split at h
    · rfl
    · split at h
      · exact absurd rfl h
      · rename_i htag
        exact if_neg htag

/-- A style that does not pass is refused, whatever it is for, and nothing else happens. -/
theorem submit_of_checkStyle_ne (h : x.checkStyle s ≠ .ok ()) (a : Ambient) (k : Kernel)
    (out : List (Lane k.output)) (ins : List (List (Lane k.input))) (count : Nat) :
    x.submit a k s out ins count =
      ⟨out, .error (.error (.unsupportedVectorLength s.element s.width)), []⟩ := by
  unfold submit check
  rw [checkStyle_of_ne_ok h]

/-- Of a style of the table nothing but the slices is left to check. -/
theorem check_of_mem (h : s ∈ x.table.styles s.element) (k : Kernel) (output : Nat) (inputs : List Nat)
    (count : Nat) : x.check k s output inputs count = k.check s output inputs count := by
  unfold check
  rw [checkStyle_of_mem h]

section
variable (a : Ambient) (k : Kernel) (out : List (Lane k.output)) (ins : List (List (Lane k.input)))
  (count : Nat)

/-- What passes all checks is one call of the kernel. -/
theorem submit_of_check (hc : x.check k s out.length (ins.map (·.length)) count = .ok ())
    (hn : 0 < count) :
    (x.submit a k s out ins count).outcome = (k.apply s out ins count).outcome ∧
      (x.submit a k s out ins count).output = (k.apply s out ins count).output := by
  unfold submit
  rw [hc]
  dsimp only
  rw [if_neg (Nat.ne_of_gt hn)]
  exact ⟨rfl, rfl⟩

theorem submitLanes_of_ok {lanes : Nat} (h : x.table.resolve k.input lanes = .ok s) :
    x.submitLanes a k lanes out ins count = x.submit a k s out ins count := by
  unfold submitLanes
  rw [h]

theorem submitLanes_of_not_mem (ht : x.table.Sized) {lanes : Nat}
    (h : lanes ∉ x.table.parallelism k.input) :
    x.submitLanes a k lanes out ins count =
      ⟨out, .error (.error (.unsupportedVectorLength k.input (min (lanes * k.input.bits) Size.top))), []⟩ := by
  unfold submitLanes
  cases hr : x.table.resolve k.input lanes with
  | ok s => exact absurd ((Table.mem_parallelism ht).mpr ⟨s, hr⟩) h
  | error err => rw [Table.resolve_error hr]

/-- **A host takes the styles of its table and no others.**  Any style that can be had holds whole lanes, and
a single one if it is called scalar.  It passes the check exactly if it stands in the table, and then only the
slices are left to be looked at; else the submission is refused for its width, with any kernel and any
operands, and nothing happens.  So the widest style always passes; and a lane count does exactly if the table
lists it, and is refused just so if it does not. -/
theorem style_check_exact (x : Executor) (ht : x.table.Sized) :
    (∀ s : Style, s.Obtainable →
      1 ≤ s.lanes ∧ s.lanes * s.element.bits = s.width ∧
      (s.isScalar = true → s.width = s.element.bits) ∧
      (x.checkStyle s = .ok () ↔ s ∈ x.table.styles s.element) ∧
      (s ∈ x.table.styles s.element →
        k.check s out.length (ins.map (·.length)) count = .ok () → 0 < count →
        (x.submit a k s out ins count).outcome = (k.apply s out ins count).outcome ∧
          (x.submit a k s out ins count).output = (k.apply s out ins count).output) ∧
      (s ∉ x.table.styles s.element →
        x.submit a k s out ins count =
          ⟨out, .error (.error (.unsupportedVectorLength s.element s.width)), []⟩)) ∧
    (x.checkStyle (x.table.widest k.input) = .ok () ∧
      x.submitWidest a k out ins count = x.submit a k (x.table.widest k.input) out ins count) ∧
    ∀ lanes,
      (lanes ∈ x.table.parallelism k.input ↔
        ∃ s, x.table.resolve k.input lanes = .ok s ∧ x.checkStyle s = .ok () ∧
          x.submitLanes a k lanes out ins count = x.submit a k s out ins count) ∧
      (lanes ∉ x.table.parallelism k.input →
        x.submitLanes a k lanes out ins count =
          ⟨out, .error (.error (.unsupportedVectorLength k.input (min (lanes * k.input.bits) Size.top))),
            []⟩) := by
  refine ⟨fun s hs => ?_, ⟨checkStyle_of_mem (x.table.widest_mem k.input), rfl⟩,
    fun lanes => ⟨?_, submitLanes_of_not_mem a k out ins count ht⟩⟩
  · have htaken : x.checkStyle s = .ok () ↔ s ∈ x.table.styles s.element := checkStyle_eq_ok_iff hs.eq_scalar
    have hwidth (h : s.isScalar = true) : s.width = s.element.bits := by
      rw [hs.eq_scalar h]
      rfl
    refine ⟨s.lanes_pos, s.lanes_mul_bits, hwidth, htaken, fun h hc => ?_, fun h => ?_⟩
    · exact submit_of_check a k out ins count ((check_of_mem h k _ _ count).trans hc)
    · exact submit_of_checkStyle_ne (mt htaken.mp h) a k out ins count
  · rw [Table.mem_parallelism ht]
    constructor
    · rintro ⟨s, hr⟩
      have hmem := ((Table.resolve_eq_ok_iff ht).mp hr).1
      exact ⟨s, hr, checkStyle_of_mem hmem, submitLanes_of_ok a k out ins count hr⟩
    · rintro ⟨s, hr, -⟩
      exact ⟨s, hr⟩

/-- Four lanes are taken where the table has them, but not those of the accelerator; three are not. -/
theorem style_check_exact_sample : Table.sample.Sized ∧
    let x : Executor := ⟨Table.sample, 0⟩
    let a : Ambient := ⟨fun _ _ => true, .initial, 0, 0⟩
    let s : Style := ⟨.u32, Style.logicTag, 128, by decide, by decide⟩
    s.Obtainable ∧ s ∉ x.table.styles .u32 ∧
      x.submit a .leadingZeros s [0] [[1]] 1 =
        ⟨[0], .error (.error (.unsupportedVectorLength .u32 128)), []⟩ ∧
      (∃ r, x.table.resolve .u32 4 = .ok r ∧ x.checkStyle r = .ok ()) ∧
      x.submitLanes a .leadingZeros 3 [0] [[1]] 1 =
        ⟨[0], .error (.error (.unsupportedVectorLength .u32 96)), []⟩ := by
  let s : Style := ⟨.u32, Style.logicTag, 128, by decide, by decide⟩
  let a : Ambient := ⟨fun _ _ => true, .initial, 0, 0⟩
  have ht : Table.sample.Sized := (by decide : ∀ p ∈ Table.sample.specs, p.width < Size.limit)
  have hs : s.Obtainable := .accelerator (by decide : 128 < Size.limit) (rfl : Style.accelerator .u32 128 = .ok s)
  obtain ⟨hstyles, -, hlanes⟩ := style_check_exact a .leadingZeros [0] [[1]] 1 ⟨Table.sample, 0⟩ ht
  obtain ⟨-, -, -, hcheck, -, hrefused⟩ := hstyles s hs
  have hnot : s ∉ Table.sample.styles .u32 := fun h => nomatch hcheck.mpr h
  have hfour : 4 ∈ Table.sample.parallelism .u32 := (Table.mem_parallelism ht).mpr ⟨_, rfl⟩
  have hthree : 3 ∉ Table.sample.parallelism .u32 := fun h => by
    obtain ⟨r, hr⟩ := (Table.mem_parallelism ht).mp h
    cases hr
  obtain ⟨r, hr, hok, -⟩ := (hlanes 4).1.mp hfour
  exact ⟨ht, hs, hnot, hrefused hnot, ⟨r, hr, hok⟩, (hlanes 3).2 hthree⟩

end

/-! ## styles of the synthesized logic -/

/-- The table of a host may name an extension as the synthesized logic is named. -/
theorem takes_logic_iff {e : Element} {width : Nat} (hs : Style.accelerator e width = .ok s) :
    x.checkStyle s = .ok () ↔ ∃ p ∈ x.table.specs, p.name = Style.logicTag ∧ p.Claims e width := by
  obtain ⟨rfl, htag, rfl⟩ := Style.ofWidth_eq_ok_iff.mp hs
  have hscalar : s.isScalar ≠ true := Bool.eq_false_iff.mp (Style.isScalar_of_logic htag)
  have hne : s ≠ .scalar s.element := fun h => hscalar (h ▸ rfl)
  rw [checkStyle_eq_ok_iff fun h => absurd h hscalar]
  unfold Table.styles
  rw [List.mem_cons, or_iff_right hne, Table.mem_vectorStyles_iff_claims, htag]
  simp only [true_and, eq_comm, and_comm]

/-- **When the synthesized logic runs on a host**: exactly if the table of the host names one of its own
extensions as that logic is named, for that width.  Otherwise such a style is refused for its width, with any
kernel and any operands, and nothing happens. -/
theorem logic_style_on_host (x : Executor) {e : Element} {width : Nat} {s : Style}
    (hs : Style.accelerator e width = .ok s) :
    (x.checkStyle s = .ok () ↔ ∃ p ∈ x.table.specs, p.name = Style.logicTag ∧ p.Claims e width) ∧
    ((∀ p ∈ x.table.specs, p.name = Style.logicTag → ¬ p.Claims e width) →
      ∀ (a : Ambient) (k : Kernel) (out : List (Lane k.output)) (ins : List (List (Lane k.input)))
        (count : Nat),
        x.submit a k s out ins count =
          ⟨out, .error (.error (.unsupportedVectorLength e width)), []⟩) := by
  refine ⟨takes_logic_iff hs, fun hn a k out ins count => ?_⟩
  have hrefused : x.checkStyle s ≠ .ok () := fun h => by
    obtain ⟨p, hp, hname, hclaims⟩ := (takes_logic_iff hs).mp h
    exact hn p hp hname hclaims
  obtain ⟨rfl, -, rfl⟩ := Style.ofWidth_eq_ok_iff.mp hs
  exact submit_of_checkStyle_ne hrefused a k out ins count

/-- Where nothing is named so, a register of the synthesized logic is refused. -/
theorem logic_style_on_host_refused :
    let s : Style := ⟨.u32, Style.logicTag, 128, by decide, by decide⟩
    Style.accelerator .u32 128 = .ok s ∧
      (∀ p ∈ Table.sample.specs, p.name = Style.logicTag → ¬ p.Claims .u32 128) ∧
      submit ⟨Table.sample, 0⟩ ⟨fun _ _ => true, .initial, 0, 0⟩ .leadingZeros s [0, 0, 0, 0] [[1, 2, 3, 4]] 4 =
        ⟨[0, 0, 0, 0], .error (.error (.unsupportedVectorLength .u32 128)), []⟩ := by
  let s : Style := ⟨.u32, Style.logicTag, 128, by decide, by decide⟩
  have hs : Style.accelerator .u32 128 = .ok s := rfl
  have hnames : ∀ p ∈ Table.sample.specs, p.name ≠ Style.logicTag := by decide
  have hnone : ∀ p ∈ Table.sample.specs, p.name = Style.logicTag → ¬ p.Claims .u32 128 :=
    fun p hp hname => absurd hname (hnames p hp)
  exact ⟨hs, hnone, (logic_style_on_host ⟨Table.sample, 0⟩ hs).2 hnone _ .leadingZeros _ _ 4⟩

/-- a table with an extension that is named as the synthesized logic is -/
def logicTable : Table := (Table.ofSpecs [⟨Style.logicTag, 128, [], none⟩]).toOption.get rfl

/-- A register of the synthesized logic is counted on a host with that table. -/
theorem logic_style_accepted : ∃ s, Style.accelerator .u32 128 = .ok s ∧
    let r := submit ⟨logicTable, 0⟩ ⟨fun _ _ => true, .initial, 0, 0⟩ .leadingZeros s [0, 0, 0, 0]
      [[1, 2, 3, 4]] 4
    r.outcome = .ok () ∧ r.output = [31, 30, 30, 29] := by
  let x : Executor := ⟨logicTable, 0⟩
  let s : Style := ⟨.u32, Style.logicTag, 128, by decide, by decide⟩
  let out : List (Lane Kernel.leadingZeros.output) := [0, 0, 0, 0]
  let ins : List (List (Lane Kernel.leadingZeros.input)) := [[1, 2, 3, 4]]
  have hcheck : x.check .leadingZeros s out.length (ins.map (·.length)) 4 = .ok () := rfl
  have hcounts : ∀ xs ∈ ins, 4 ≤ xs.length := by decide
  have hlimit : 4 + s.lanes ≤ Size.limit := by decide
  obtain ⟨hdone, hcounted⟩ : (Kernel.leadingZeros.apply s out ins 4).outcome = .ok () ∧
      (Kernel.leadingZeros.apply s out ins 4).output = [31, 30, 30, 29] :=
    Kernel.lanewise_leadingZeros.apply_of_le (Nat.le_refl 4) hcounts hlimit
  obtain ⟨houtcome, houtput⟩ := submit_of_check ⟨fun _ _ => true, .initial, 0, 0⟩ .leadingZeros out ins 4
    hcheck (by decide)
  exact ⟨s, rfl, houtcome.trans hdone, houtput.trans hcounted⟩

end Offload.Host.Executor
