import Offload.Proofs.Text.Reading
import Offload.Trace.Setup

/-!
# Blank variables of the log

A blank text is none of the words that a variable is compared with, and no number.

* `preset_of_blank`, `withDirectives_of_blank`, `withFormat_of_blank`, `withThreshold_of_blank`
                                such a variable may as well be unset;
* `withPerformance_of_blank`    but here it means no;
* `blank_variables`             so all variables but this one may be blank, and this one where the preset
                                has said no already.
-/

namespace Offload

namespace Text.Blank

/-- No blank is a visible character of ASCII. -/
theorem outside_of_char {c : Char} (h : char c = true) : c.val.toNat ≤ 0x20 ∨ 0x85 ≤ c.val.toNat := by
  unfold char ranges at h
  simp only [List.any_cons, List.any_nil, Bool.or_eq_true, Bool.and_eq_true, decide_eq_true_eq,
    Bool.false_eq_true, or_false, Char.toNat] at h
  omega

variable {s : String} (h : text s = true)
include h

/-- A blank text has no capital letters. -/
theorem lower_of_blank : Ascii.lower s = s := by
  have hchar : ∀ c ∈ s.toList, c.toLower = c := by
    intro c hc
    have hblank := outside_of_char (text_iff.mp h c hc)
    have hA : ('A' : Char).val.toNat = 65 := rfl
    have hZ : ('Z' : Char).val.toNat = 90 := rfl
    unfold Char.toLower
    rw [dif_neg]
    simp only [ge_iff_le, UInt32.le_iff_toNat_le]
    omega
  unfold Ascii.lower Ascii.lowerChars
  rw [List.map_congr_left hchar, List.map_id', String.ofList_toList]

theorem ne_of_solid {w : String} (hw : text w = false) : s ≠ w := by
  rintro rfl
  cases h.symm.trans hw

/-- A blank text agrees with no other up to case. -/
theorem same_of_blank {w : String} (hw : text w = false) (hlower : Ascii.lower w = w) :
    Ascii.same s w = false := by
  refine Bool.eq_false_iff.mpr fun hsame => ne_of_solid h hw ?_
  have hchars : Ascii.lowerChars s.toList = Ascii.lowerChars w.toList := beq_iff_eq.mp hsame
  rw [← lower_of_blank h, ← hlower]
  exact congrArg String.ofList hchars

theorem trimmed_of_blank : trimmed s = "" := by
  unfold trimmed
  rw [trim_eq_nil.mpr h]

/-- A blank text is no size. -/
theorem read_of_blank (n : Nat) : Numeral.read s ≠ .ok n := by
  intro hread
  obtain ⟨sign, ds, hs, -, hne, hdigits, -, -⟩ := Numeral.readChars_eq_ok_iff.mp hread
  obtain ⟨c, hc⟩ := List.exists_mem_of_ne_nil ds hne
  have hblank := outside_of_char (text_iff.mp h c (hs ▸ List.mem_append_right sign hc))
  have hdigit := hdigits c hc
  simp only [Char.le_def, UInt32.le_iff_toNat_le] at hdigit
  have hzero : ('0' : Char).val.toNat = 48 := rfl
  have hnine : ('9' : Char).val.toNat = 57 := rfl
  omega

end Text.Blank

namespace Trace.Setup

open Text

section
variable {s : String} (h : Blank.text s = true)
include h

theorem preset_of_blank : preset (some s) = preset none := by
  have hlower := Blank.lower_of_blank h
  have hci : s ≠ "ci" := Blank.ne_of_solid h (by decide)
  have hperformance : s ≠ "performance" := Blank.ne_of_solid h (by decide)
  unfold preset presetOf
  rw [Option.map_some, hlower]
  split
  · rename_i heq
    exact absurd (Option.some.inj heq) hci
  · rename_i heq
    exact absurd (Option.some.inj heq) hperformance
  · rfl

theorem withDirectives_of_blank (c : Setup) : c.withDirectives (some s) = c := if_pos h

theorem withFormat_of_blank (c : Setup) : c.withFormat (some s) = c := by
  have hread : Output.read? s = none := by
    unfold Output.read?
    rw [Blank.trimmed_of_blank h]
    decide
  unfold withFormat
  rw [Option.bind_eq_bind, Option.bind_some, hread]

theorem withThreshold_of_blank (c : Setup) : c.withThreshold (some s) = c := by
  unfold withThreshold
  split
  · rename_i n heq
    exact absurd (Option.some.inj heq) (Blank.read_of_blank h n)
  · rfl

/-- Whatever the setup was, it does not record performance any more. -/
theorem withPerformance_of_blank (c : Setup) :
    c.withPerformance (some s) = { c with performance := false } := by
  have htrue : Ascii.same s "true" = false := Blank.same_of_blank h (by decide) (by decide)
  have hyes : Ascii.same s "yes" = false := Blank.same_of_blank h (by decide) (by decide)
  have hone : s ≠ "1" := Blank.ne_of_solid h (by decide)
  unfold withPerformance
  simp only [htrue, hyes, decide_eq_false hone, Bool.or_self]

end

/-! ## one variable at a time -/

/-- the setup that the texts of the variables ask for -/
def ofTexts (text : String → Option String) : Setup :=
  ((((preset (text profileVariable)).withDirectives (text directivesVariable)).withFormat
    (text formatVariable)).withPerformance (text performanceVariable)).withThreshold
    (text thresholdVariable)

theorem ofEnvironment_set (env : Environment) (name s : String) :
    ofEnvironment (env.set name s.toUTF8) = ofTexts fun v => if v = name then some s else env.text? v :=
  congrArg ofTexts (funext (env.text?_set name s))

theorem ofEnvironment_unset (env : Environment) (name : String) :
    ofEnvironment (env.unset name) = ofTexts fun v => if v = name then none else env.text? v :=
  congrArg ofTexts (funext (env.text?_unset name))

theorem performance_withDirectives (c : Setup) (o : Option String) :
    (c.withDirectives o).performance = c.performance := by
  unfold withDirectives
  split
  · split <;> rfl
  · rfl

theorem performance_withFormat (c : Setup) (o : Option String) :
    (c.withFormat o).performance = c.performance := by
  unfold withFormat
  split <;> rfl

theorem performance_withThreshold (c : Setup) (o : Option String) :
    (c.withThreshold o).performance = c.performance := by
  unfold withThreshold
  split <;> rfl

theorem withThreshold_silent (c : Setup) (o : Option String) :
    Setup.withThreshold { c with performance := false } o =
      { c.withThreshold o with performance := false } := by
  unfold withThreshold
  split <;> rfl

/-- Only the preset for build servers records no performance. -/
theorem performance_preset_eq_false_iff (o : Option String) :
    (preset o).performance = false ↔ ∃ p, o = some p ∧ Ascii.lower p = "ci" := by
  cases o with
  | none => exact ⟨fun h => (nomatch h), fun ⟨_, h, _⟩ => (nomatch h)⟩
  | some p =>
    have hp : (∃ q, some p = some q ∧ Ascii.lower q = "ci") ↔ Ascii.lower p = "ci" :=
      ⟨fun ⟨_, h, hq⟩ => Option.some.inj h ▸ hq, fun h => ⟨p, rfl, h⟩⟩
    rw [hp]
    unfold preset presetOf
    split
    · rename_i heq
      exact iff_of_true rfl (Option.some.inj heq)
    · rename_i heq
      have hlower : Ascii.lower p = "performance" := Option.some.inj heq
      exact iff_of_false (fun h => nomatch h) (by rw [hlower]; decide)
    · rename_i hci _
      exact iff_of_false (fun h => nomatch h) fun h => hci (congrArg some h)

section
variable (env : Environment) {s : String} (h : Blank.text s = true)
include h

/-- Four of the five variables may as well be unset. -/
theorem ofEnvironment_set_blank {name : String} (hn : name ≠ performanceVariable) :
    ofEnvironment (env.set name s.toUTF8) = ofEnvironment (env.unset name) := by
  rw [ofEnvironment_set, ofEnvironment_unset]
  unfold ofTexts
  simp only [if_neg (Ne.symm hn)]
  by_cases hprofile : profileVariable = name
  · subst hprofile
    simp only [if_true, preset_of_blank h, if_neg (by decide : directivesVariable ≠ profileVariable),
      if_neg (by decide : formatVariable ≠ profileVariable),
      if_neg (by decide : thresholdVariable ≠ profileVariable)]
  by_cases hdirectives : directivesVariable = name
  · subst hdirectives
    simp only [if_true, withDirectives_of_blank h, if_neg hprofile,
      if_neg (by decide : formatVariable ≠ directivesVariable),
      if_neg (by decide : thresholdVariable ≠ directivesVariable)]
    rfl
  by_cases hformat : formatVariable = name
  · subst hformat
    simp only [if_true, withFormat_of_blank h, if_neg hprofile, if_neg hdirectives,
      if_neg (by decide : thresholdVariable ≠ formatVariable)]
    rfl
  by_cases hthreshold : thresholdVariable = name
  · subst hthreshold
    simp only [if_true, withThreshold_of_blank h, if_neg hprofile, if_neg hdirectives, if_neg hformat]
    rfl
  simp only [if_neg hprofile, if_neg hdirectives, if_neg hformat, if_neg hthreshold]

/-- The fifth means no where it is blank. -/
theorem ofEnvironment_set_blank_performance :
    ofEnvironment (env.set performanceVariable s.toUTF8) =
      { ofEnvironment (env.unset performanceVariable) with performance := false } := by
  rw [ofEnvironment_set, ofEnvironment_unset]
  unfold ofTexts
  simp only [if_true, withPerformance_of_blank h, withThreshold_silent,
    if_neg (by decide : profileVariable ≠ performanceVariable),
    if_neg (by decide : directivesVariable ≠ performanceVariable),
    if_neg (by decide : formatVariable ≠ performanceVariable),
    if_neg (by decide : thresholdVariable ≠ performanceVariable)]
  rfl

end

theorem performance_ofEnvironment_unset (env : Environment) :
    (ofEnvironment (env.unset performanceVariable)).performance =
      (preset (env.text? profileVariable)).performance := by
  rw [ofEnvironment_unset]
  unfold ofTexts
  rw [performance_withThreshold]
  simp only [if_true, if_neg (by decide : profileVariable ≠ performanceVariable), withPerformance,
    performance_withFormat, performance_withDirectives]

/-- **Blank variables of the log.**  Every variable may be blank instead of unset, whatever the others are,
but for the one that says whether performance is recorded.  Blank, it means no and changes nothing else, so
that it is as if unset exactly where the preset for build servers is chosen. -/
theorem blank_variables (env : Environment) {s : String} (h : Blank.text s = true) :
    (∀ name, name ≠ performanceVariable →
      ofEnvironment (env.set name s.toUTF8) = ofEnvironment (env.unset name)) ∧
    ofEnvironment (env.set performanceVariable s.toUTF8) =
      { ofEnvironment (env.unset performanceVariable) with performance := false } ∧
    (ofEnvironment (env.set performanceVariable s.toUTF8) = ofEnvironment (env.unset performanceVariable) ↔
      ∃ p, env.text? profileVariable = some p ∧ Ascii.lower p = "ci") := by
  have hblank := ofEnvironment_set_blank_performance env h
  refine ⟨fun name hn => ofEnvironment_set_blank env h hn, hblank, ?_⟩
  rw [hblank, ← performance_preset_eq_false_iff, ← performance_ofEnvironment_unset]
  constructor
  · intro heq
    rw [← heq]
  · intro hno
    rw [← hno]

/-- A space for the format is no format, and for the preset of build servers a space changes nothing. -/
theorem blank_variables_space :
    let env := Environment.empty.set profileVariable "CI".toUTF8
    Blank.text " " = true ∧
      ofEnvironment (env.set formatVariable " ".toUTF8) = ofEnvironment (env.unset formatVariable) ∧
      ofEnvironment (env.set performanceVariable " ".toUTF8) =
        ofEnvironment (env.unset performanceVariable) := by
  intro env
  have hblank : Blank.text " " = true := by decide
  have hci : env.text? profileVariable = some "CI" := by
    rw [Environment.text?_set, if_pos rfl]
  obtain ⟨hother, -, hperformance⟩ := blank_variables env hblank
  exact ⟨hblank, hother formatVariable (by decide), hperformance.mpr ⟨"CI", hci, by decide⟩⟩

/-- For the preset of profiling a space is not the same as nothing. -/
theorem blank_performance_differs :
    let env := Environment.empty.set profileVariable "performance".toUTF8
    Blank.text " " = true ∧
      (ofEnvironment (env.set performanceVariable " ".toUTF8)).performance = false ∧
      (ofEnvironment (env.unset performanceVariable)).performance = true ∧
      ofEnvironment (env.set performanceVariable " ".toUTF8) ≠
        ofEnvironment (env.unset performanceVariable) := by
  intro env
  have hblank : Blank.text " " = true := by decide
  have hprofile : env.text? profileVariable = some "performance" := by
    rw [Environment.text?_set, if_pos rfl]
  have hno : (ofEnvironment (env.set performanceVariable " ".toUTF8)).performance = false := by
    rw [ofEnvironment_set_blank_performance env hblank]
  have hyes : (ofEnvironment (env.unset performanceVariable)).performance = true := by
    rw [performance_ofEnvironment_unset, hprofile]
    decide
  refine ⟨hblank, hno, hyes, fun heq => ?_⟩
  rw [heq, hyes] at hno
  cases hno

end Trace.Setup

end Offload
