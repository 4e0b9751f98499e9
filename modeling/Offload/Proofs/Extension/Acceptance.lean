import Offload.Extension.Table

/-!
# What makes a list of descriptions a table

Descriptions are entered one type after the other, and the first offence ends it.  Here the same is said
of the list as a whole.

* `Spec.WellFormed`        nothing is wrong with a description on its own;
* `Spec.Claims`            the description asks for a width of an element type;
* `Spec.Apart`             two descriptions never ask for the same;
* `Spec.entries`           what a well-formed description enters (`mem_entries`);
* `acceptAll_eq_ok_iff`    a list is accepted exactly if all of it is well-formed and apart, and then its
                           entries are the claims, in the order of the list;
* `acceptAll_eq_error_iff`  else the first description that does not go with those before it decides;
* `accept_duplicate`       which of two providers such an error names first.
-/

namespace Offload.Extension

namespace Spec

/-- what a description has to be, whatever the others are -/
structure WellFormed (s : Spec) : Prop where
  named : ∃ c ∈ s.name.toList, Text.Blank.char c = false
  unreserved : s.name ≠ Style.scalarTag
  wide : s.width ≠ 0
  listed : ∀ es, s.elements = some es → es.Nodup ∧ ∀ e ∈ es, Fits e s.width

/-- A listed type is claimed as it is, an unlisted one where the width suits it. -/
def Claims (s : Spec) (e : Element) (width : Nat) : Prop :=
  width = s.width ∧
    match s.elements with
    | some es => e ∈ es
    | none => Fits e width

def Apart (s t : Spec) : Prop := ∀ e width, s.Claims e width → ¬ t.Claims e width

theorem Apart.symm {s t : Spec} (h : s.Apart t) : t.Apart s := fun e width ht hs => h e width hs ht

/-- what is entered for one of the types -/
def entry? (s : Spec) (e : Element) : Option Claim :=
  if fits : Fits e s.width then some ⟨e, s.width, s.name, fits⟩ else none

def entries (s : Spec) : List Claim := s.candidates.filterMap s.entry?

variable {s : Spec} {e : Element} {width : Nat} {c : Claim}

theorem entry?_of_fits (h : Fits e s.width) : s.entry? e = some ⟨e, s.width, s.name, h⟩ := dif_pos h

theorem entry?_of_not_fits (h : ¬ Fits e s.width) : s.entry? e = none := dif_neg h

theorem entry?_eq_some_iff : s.entry? e = some c ↔ c.element = e ∧ c.width = s.width ∧ c.tag = s.name := by
  constructor
  · intro h
    unfold entry? at h
    split at h
    · cases h
      exact ⟨rfl, rfl, rfl⟩
    · cases h
  · obtain ⟨e', width', tag, fits⟩ := c
    rintro ⟨rfl, rfl, rfl⟩
    exact entry?_of_fits fits

theorem mem_candidates (h : Fits e s.width) : e ∈ s.candidates ↔ s.Claims e s.width := by
  unfold candidates Claims
  cases s.elements with
  | none => simp [e.mem_all, h]
  | some es => simp

theorem mem_entries : c ∈ s.entries ↔ s.Claims c.element c.width ∧ c.tag = s.name := by
  unfold entries
  rw [List.mem_filterMap]
  constructor
  · rintro ⟨e, he, hc⟩
    obtain ⟨rfl, hw, ht⟩ := entry?_eq_some_iff.mp hc
    have fits : Fits c.element s.width := hw ▸ c.fits
    exact ⟨hw ▸ (mem_candidates fits).mp he, ht⟩
  · rintro ⟨hc, ht⟩
    have hw : c.width = s.width := hc.1
    have fits : Fits c.element s.width := hw ▸ c.fits
    exact ⟨c.element, (mem_candidates fits).mpr (hw ▸ hc), entry?_eq_some_iff.mpr ⟨rfl, hw, ht⟩⟩

theorem WellFormed.fits (h : s.WellFormed) (hc : s.Claims e width) : Fits e width := by
  obtain ⟨rfl, hc⟩ := hc
  cases hs : s.elements with
  | none =>
    rw [hs] at hc
    exact hc
  | some es =>
    rw [hs] at hc
    exact (h.listed es hs).2 e hc

theorem WellFormed.nodup_candidates (h : s.WellFormed) : s.candidates.Nodup := by
  unfold candidates
  cases hs : s.elements with
  | none => exact Element.nodup_all
  | some es => exact (h.listed es hs).1

end Spec

variable {s : Spec} {claims cs : List Claim} {e : Element} {width : Nat}

/-! ## providers -/

theorem provider?_append (claims cs : List Claim) (e : Element) (width : Nat) :
    provider? (claims ++ cs) e width = (provider? claims e width).or (provider? cs e width) :=
  List.find?_append

theorem provider?_eq_none_iff :
    provider? claims e width = none ↔ ∀ c ∈ claims, c.element = e → c.width ≠ width := by
  unfold provider?
  rw [List.find?_eq_none]
  simp only [decide_eq_true_eq, not_and]

theorem mem_of_provider? {c : Claim} (h : provider? claims e width = some c) :
    c ∈ claims ∧ c.element = e ∧ c.width = width :=
  ⟨List.mem_of_find?_eq_some h, by simpa using List.find?_some h⟩

theorem provider?_entry?_of_ne {e' : Element} (h : e ≠ e') :
    provider? (s.entry? e).toList e' width = none := by
  rw [provider?_eq_none_iff]
  intro c hc he
  rw [Option.mem_toList, Spec.entry?_eq_some_iff] at hc
  exact absurd (hc.1.symm.trans he) h

theorem Spec.WellFormed.provider?_entries (h : s.WellFormed) :
    provider? s.entries e width = none ↔ ¬ s.Claims e width := by
  rw [provider?_eq_none_iff]
  constructor
  · intro hn hc
    exact hn ⟨e, width, s.name, h.fits hc⟩ (mem_entries.mpr ⟨hc, rfl⟩) rfl rfl
  · rintro hn c hc rfl rfl
    exact hn (mem_entries.mp hc).1

/-! ## one type -/

theorem enter_eq_ok_iff {seen : List Element} :
    enter s seen e claims = .ok cs ↔
      e ∉ seen ∧ (s.elements.isSome = true → Fits e s.width) ∧
        (Fits e s.width → provider? claims e s.width = none) ∧ cs = claims ++ (s.entry? e).toList := by
  unfold enter
  by_cases hs : e ∈ seen
  · rw [if_pos hs]
    exact ⟨fun h => (nomatch h), fun h => absurd hs h.1⟩
  · rw [if_neg hs]
    by_cases fits : Fits e s.width
    · rw [dif_pos fits, Spec.entry?_of_fits fits]
      cases hp : provider? claims e s.width with
      | some first => exact ⟨fun h => (nomatch h), fun h => nomatch h.2.2.1 fits⟩
      | none =>
        dsimp only
        rw [Except.ok.injEq]
        exact ⟨fun h => ⟨hs, fun _ => fits, fun _ => rfl, h.symm⟩, fun h => h.2.2.2.symm⟩
    · rw [dif_neg fits, Spec.entry?_of_not_fits fits]
      by_cases hl : s.elements.isSome = true
      · rw [if_pos hl]
        exact ⟨fun h => (nomatch h), fun h => absurd (h.2.1 hl) fits⟩
      · rw [if_neg hl, Except.ok.injEq]
        refine ⟨fun h => ⟨hs, fun h => absurd h hl, fun h => absurd h fits, ?_⟩, fun h => ?_⟩
        · rw [← h, Option.toList_none, List.append_nil]
        · rw [h.2.2.2, Option.toList_none, List.append_nil]

/-- A width that is taken is one that the type suits. -/
theorem enter_duplicate {seen : List Element} {e' : Element} {a b : String}
    (h : enter s seen e claims = .error (.duplicateExtensionWidth e' width a b)) :
    e' = e ∧ e ∉ seen ∧ Fits e s.width ∧ width = s.width ∧ b = s.name ∧
      ∃ c, provider? claims e s.width = some c ∧ c.tag = a := by
  unfold enter at h
  split at h
  · cases h
  · rename_i hs
    split at h
    · rename_i fits
      split at h
      · rename_i c hc
        cases h
        exact ⟨rfl, hs, fits, rfl, rfl, c, hc, rfl⟩
      · cases h
    · split at h <;> cases h

/-! ## one description -/

theorem enterAll_cons {seen es : List Element} :
    enterAll s seen (e :: es) claims = .ok cs ↔
      ∃ ds, enter s seen e claims = .ok ds ∧ enterAll s (e :: seen) es ds = .ok cs := by
  rw [enterAll]
  cases enter s seen e claims with
  | error err => exact ⟨fun h => (nomatch h), fun ⟨_, h, _⟩ => (nomatch h)⟩
  | ok ds => exact ⟨fun h => ⟨ds, rfl, h⟩, fun ⟨_, rfl, h⟩ => h⟩

theorem enterAll_eq_ok_iff {seen es : List Element} :
    enterAll s seen es claims = .ok cs ↔
      es.Nodup ∧ (∀ e ∈ es, e ∉ seen) ∧ (s.elements.isSome = true → ∀ e ∈ es, Fits e s.width) ∧
        (∀ e ∈ es, Fits e s.width → provider? claims e s.width = none) ∧
        cs = claims ++ es.filterMap s.entry? := by
  induction es generalizing seen claims with
  | nil =>
    rw [enterAll, Except.ok.injEq, List.filterMap_nil, List.append_nil]
    exact ⟨fun h => ⟨List.nodup_nil, nofun, fun _ => nofun, nofun, h.symm⟩, fun h => h.2.2.2.2.symm⟩
  | cons e es ih =>
    have hsplit : (e :: es).filterMap s.entry? = (s.entry? e).toList ++ es.filterMap s.entry? := by
      rw [List.filterMap_cons]
      cases s.entry? e <;> rfl
    -- what the head enters is of another type than those behind it, so it is in nobody's way
    have hskip : e ∉ es → ∀ e' ∈ es, provider? (claims ++ (s.entry? e).toList) e' s.width =
        provider? claims e' s.width := by
      intro hne e' he'
      have hother : e ≠ e' := by
        rintro rfl
        exact hne he'
      rw [provider?_append, provider?_entry?_of_ne hother, Option.or_none]
    rw [enterAll_cons, hsplit]
    constructor
    · rintro ⟨ds, hd, hcs⟩
      obtain ⟨hs, hl, hp, rfl⟩ := enter_eq_ok_iff.mp hd
      obtain ⟨hnd, hns, hls, hps, rfl⟩ := ih.mp hcs
      have hne : e ∉ es := fun h => hns e h List.mem_cons_self
      refine ⟨List.nodup_cons.mpr ⟨hne, hnd⟩, ?_, ?_, ?_, (List.append_assoc ..)⟩
      · exact List.forall_mem_cons.mpr ⟨hs, fun a ha h => hns a ha (List.mem_cons_of_mem e h)⟩
      · exact fun h => List.forall_mem_cons.mpr ⟨hl h, hls h⟩
      · exact List.forall_mem_cons.mpr ⟨hp, fun a ha => hskip hne a ha ▸ hps a ha⟩
    · rintro ⟨hnd, hns, hls, hps, rfl⟩
      obtain ⟨hne, hnd⟩ := List.nodup_cons.mp hnd
      obtain ⟨hs, hns⟩ := List.forall_mem_cons.mp hns
      obtain ⟨hp, hps⟩ := List.forall_mem_cons.mp hps
      refine ⟨_, enter_eq_ok_iff.mpr ⟨hs, fun h => hls h e List.mem_cons_self, hp, rfl⟩, ih.mpr ?_⟩
      refine ⟨hnd, ?_, fun h a ha => hls h a (List.mem_cons_of_mem e ha), ?_, (List.append_assoc ..).symm⟩
      · intro a ha h
        rcases List.mem_cons.mp h with rfl | h
        · exact hne ha
        · exact hns a ha h
      · exact fun a ha => (hskip hne a ha).symm ▸ hps a ha

theorem enterAll_duplicate {seen es : List Element} {a b : String}
    (h : enterAll s seen es claims = .error (.duplicateExtensionWidth e width a b)) :
    e ∈ es ∧ e ∉ seen ∧ Fits e s.width ∧ width = s.width ∧ b = s.name ∧
      ∃ c, provider? claims e s.width = some c ∧ c.tag = a := by
  induction es generalizing seen claims with
  | nil => cases h
  | cons e₀ es ih =>
    rw [enterAll] at h
    cases hd : enter s seen e₀ claims with
    | error err =>
      rw [hd] at h
      cases h
      obtain ⟨rfl, hs, rest⟩ := enter_duplicate hd
      exact ⟨List.mem_cons_self, hs, rest⟩
    | ok ds =>
      rw [hd] at h
      obtain ⟨he, hs, fits, hw, hb, c, hc, ha⟩ := ih h
      obtain ⟨-, -, -, rfl⟩ := enter_eq_ok_iff.mp hd
      have hne : e₀ ≠ e := fun heq => hs (List.mem_cons.mpr (.inl heq.symm))
      rw [provider?_append, provider?_entry?_of_ne hne, Option.or_none] at hc
      exact ⟨List.mem_cons_of_mem e₀ he, fun h => hs (List.mem_cons_of_mem e₀ h), fits, hw, hb, c, hc, ha⟩

theorem Spec.named_iff : Text.Blank.text s.name = false ↔
    ∃ c ∈ s.name.toList, Text.Blank.char c = false := by
  unfold Text.Blank.text
  rw [List.all_eq_false]
  simp only [Bool.not_eq_true]

theorem accept_eq_ok_iff : accept claims s = .ok cs ↔
    s.WellFormed ∧ (∀ e width, s.Claims e width → provider? claims e width = none) ∧
      cs = claims ++ s.entries := by
  unfold accept
  by_cases hb : Text.Blank.text s.name = true
  · rw [if_pos hb]
    refine ⟨fun h => (nomatch h), fun h => ?_⟩
    rw [Spec.named_iff.mpr h.1.named] at hb
    cases hb
  rw [if_neg hb]
  by_cases hn : s.name = Style.scalarTag
  · rw [if_pos hn]
    exact ⟨fun h => (nomatch h), fun h => absurd hn h.1.unreserved⟩
  rw [if_neg hn]
  by_cases hw : s.width = 0
  · rw [if_pos hw]
    exact ⟨fun h => (nomatch h), fun h => absurd hw h.1.wide⟩
  rw [if_neg hw, enterAll_eq_ok_iff]
  have hname := Spec.named_iff.mp (Bool.eq_false_iff.mpr hb)
  constructor
  · rintro ⟨hnd, -, hl, hp, rfl⟩
    have hwf : s.WellFormed := by
      refine ⟨hname, hn, hw, fun es hes => ?_⟩
      have hcand : s.candidates = es := by rw [Spec.candidates, hes, Option.getD_some]
      exact ⟨hcand ▸ hnd, hcand ▸ hl (by rw [hes]; rfl)⟩
    refine ⟨hwf, fun e width hc => ?_, rfl⟩
    obtain rfl := hc.1
    exact hp e ((Spec.mem_candidates (hwf.fits hc)).mpr hc) (hwf.fits hc)
  · rintro ⟨hwf, hp, rfl⟩
    refine ⟨hwf.nodup_candidates, nofun, fun hsome e he => ?_, fun e he fits => ?_, rfl⟩
    · obtain ⟨es, hes⟩ := Option.isSome_iff_exists.mp hsome
      rw [Spec.candidates, hes, Option.getD_some] at he
      exact (hwf.listed es hes).2 e he
    · exact hp e s.width ((Spec.mem_candidates fits).mp he)

/-- Of two providers of a width the one that was there before is named first. -/
theorem accept_duplicate {a b : String}
    (h : accept claims s = .error (.duplicateExtensionWidth e width a b)) :
    s.Claims e width ∧ b = s.name ∧ ∃ c, provider? claims e width = some c ∧ c.tag = a := by
  unfold accept at h
  split at h
  · cases h
  · split at h
    · cases h
    · split at h
      · cases h
      · obtain ⟨he, -, fits, rfl, hb, hc⟩ := enterAll_duplicate h
        exact ⟨(Spec.mem_candidates fits).mp he, hb, hc⟩

/-! ## all descriptions -/

theorem acceptAll_cons {ss : List Spec} :
    acceptAll (s :: ss) claims = .ok cs ↔
      ∃ ds, accept claims s = .ok ds ∧ acceptAll ss ds = .ok cs := by
  rw [acceptAll]
  constructor
  · intro h
    cases hs : accept claims s with
    | error err =>
      rw [hs] at h
      cases h
    | ok ds =>
      rw [hs] at h
      exact ⟨ds, rfl, h⟩
  · rintro ⟨ds, hs, h⟩
    rw [hs]
    exact h

theorem acceptAll_eq_ok_iff {specs : List Spec} :
    acceptAll specs claims = .ok cs ↔
      (∀ s ∈ specs, s.WellFormed) ∧ specs.Pairwise Spec.Apart ∧
        (∀ s ∈ specs, ∀ e width, s.Claims e width → provider? claims e width = none) ∧
        cs = claims ++ specs.flatMap Spec.entries := by
  induction specs generalizing claims with
  | nil =>
    have hnone {p : Spec → Prop} : ∀ s ∈ [], p s := fun _ hs => absurd hs List.not_mem_nil
    rw [acceptAll, Except.ok.injEq, List.flatMap_nil, List.append_nil]
    exact ⟨fun h => ⟨hnone, .nil, hnone, h.symm⟩, fun h => h.2.2.2.symm⟩
  | cons s ss ih =>
    rw [acceptAll_cons, List.flatMap_cons]
    -- what is free once `s` has entered is what was free and what `s` does not claim
    have hfree (hs : s.WellFormed) (e : Element) (width : Nat) :
        provider? (claims ++ s.entries) e width = none ↔
          provider? claims e width = none ∧ ¬ s.Claims e width := by
      rw [provider?_append, Option.or_eq_none_iff, hs.provider?_entries]
    constructor
    · rintro ⟨ds, hd, hcs⟩
      obtain ⟨hs, hp, rfl⟩ := accept_eq_ok_iff.mp hd
      obtain ⟨hss, hapart, hps, rfl⟩ := ih.mp hcs
      refine ⟨List.forall_mem_cons.mpr ⟨hs, hss⟩, List.pairwise_cons.mpr ⟨?_, hapart⟩,
        List.forall_mem_cons.mpr ⟨hp, ?_⟩, List.append_assoc ..⟩
      · intro t ht e width hsc htc
        exact ((hfree hs e width).mp (hps t ht e width htc)).2 hsc
      · exact fun t ht e width htc => ((hfree hs e width).mp (hps t ht e width htc)).1
    · rintro ⟨hwf, hapart, hps, rfl⟩
      obtain ⟨hs, hss⟩ := List.forall_mem_cons.mp hwf
      obtain ⟨hsa, hapart⟩ := List.pairwise_cons.mp hapart
      obtain ⟨hp, hps⟩ := List.forall_mem_cons.mp hps
      refine ⟨_, accept_eq_ok_iff.mpr ⟨hs, hp, rfl⟩, ih.mpr ⟨hss, hapart, ?_, (List.append_assoc ..).symm⟩⟩
      exact fun t ht e width htc =>
        (hfree hs e width).mpr ⟨hps t ht e width htc, fun hsc => hsa t ht e width hsc htc⟩

/-- The first description that does not go with those before it decides. -/
theorem acceptAll_eq_error_iff {specs : List Spec} {err : Error} :
    acceptAll specs claims = .error err ↔
      ∃ before s after ds, specs = before ++ s :: after ∧ acceptAll before claims = .ok ds ∧
        accept ds s = .error err := by
  induction specs generalizing claims with
  | nil =>
    refine ⟨fun h => (nomatch h), fun ⟨before, s, after, ds, h, _⟩ => ?_⟩
    exact absurd h.symm (by simp)
  | cons s ss ih =>
    rw [acceptAll]
    constructor
    · intro h
      cases hs : accept claims s with
      | error e =>
        rw [hs] at h
        cases h
        exact ⟨[], s, ss, claims, rfl, rfl, hs⟩
      | ok ds =>
        rw [hs] at h
        obtain ⟨before, t, after, es, rfl, hb, ht⟩ := ih.mp h
        exact ⟨s :: before, t, after, es, rfl, acceptAll_cons.mpr ⟨ds, hs, hb⟩, ht⟩
    · rintro ⟨before, t, after, ds, heq, hb, ht⟩
      cases before with
      | nil =>
        cases hb
        cases heq
        rw [ht]
      | cons u before =>
        cases heq
        obtain ⟨es, hu, hb⟩ := acceptAll_cons.mp hb
        rw [hu]
        exact ih.mpr ⟨before, t, after, ds, rfl, hb, ht⟩

end Offload.Extension
