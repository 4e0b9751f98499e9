import Offload.Proofs.Extension.Table

/-!
# What a list of descriptions is made into

* `Table.Alike`       no look-up tells two tables apart; the order of the descriptions does not matter
                      for it (`alike_of_perm`);
* `ofSpecs_isOk_iff`  when a list makes a table, said of the list as a whole;
* `ofSpecs_refused`   else its shortest prefix that makes none decides, and nothing behind that;
* `ofSpecs_exact`     all of it, and what is found in the table.
-/

namespace Offload.Table

open Extension

/-! ## look-ups -/

/-- No look-up tells the tables apart. -/
structure Alike (t u : Table) : Prop where
  resolveWidth : ∀ e width, t.resolveWidth e width = u.resolveWidth e width
  resolve : ∀ e lanes, t.resolve e lanes = u.resolve e lanes
  styles : ∀ e, t.styles e = u.styles e
  widest : ∀ e, t.widest e = u.widest e
  narrowest : ∀ e, t.narrowest e = u.narrowest e
  parallelism : ∀ e, t.parallelism e = u.parallelism e

variable {t u : Table} {specs : List Spec}

/-- Sorted by width, the claims for a type stand in one order only. -/
theorem vectorStyles_eq_of_perm (h : t.claims.Perm u.claims) (e : Element) :
    t.vectorStyles e = u.vectorStyles e := by
  have hsort (v : Table) : (v.vectorStyles e).Perm ((v.claims.filter (·.element = e)).map Claim.style) :=
    (List.mergeSort_perm ..).map _
  have hperm : (t.vectorStyles e).Perm (u.vectorStyles e) :=
    (hsort t).trans (((h.filter _).map _).trans (hsort u).symm)
  refine hperm.eq_of_pairwise ?_ (t.pairwise_vectorStyles e) (u.pairwise_vectorStyles e)
  exact fun a b _ _ hab hba => absurd hba (Nat.lt_asymm hab)

theorem provider?_eq_of_perm (h : t.claims.Perm u.claims) (e : Element) (width : Nat) :
    provider? t.claims e width = provider? u.claims e width := by
  refine Option.ext fun c => ?_
  rw [provider?_eq_some_iff, provider?_eq_some_iff, h.mem_iff]

theorem alike_of_perm (h : t.specs.Perm u.specs) : t.Alike u := by
  have hclaims : t.claims.Perm u.claims := by
    rw [t.claims_eq, u.claims_eq]
    exact h.flatMap_right _
  have hwidth : ∀ e width, t.resolveWidth e width = u.resolveWidth e width := by
    intro e width
    unfold Table.resolveWidth
    rw [provider?_eq_of_perm hclaims]
  have hvector := vectorStyles_eq_of_perm hclaims
  have hstyles : ∀ e, t.styles e = u.styles e := fun e => congrArg (Style.scalar e :: ·) (hvector e)
  refine ⟨hwidth, fun e lanes => ?_, hstyles, fun e => ?_, fun e => ?_, fun e => ?_⟩
  · unfold Table.resolve
    simp only [hwidth]
  · unfold Table.widest
    rw [hvector]
  · unfold Table.narrowest
    rw [hvector]
  · unfold Table.parallelism
    rw [hstyles]

/-- The style of a width is that of the description which claims it. -/
theorem resolveWidth_of_claims {s : Spec} (hs : s ∈ t.specs) {e : Element} {width : Nat}
    (hc : s.Claims e width) :
    ∃ style, t.resolveWidth e width = .ok style ∧ style.element = e ∧ style.tag = s.name ∧
      style.width = width ∧ style.isScalar = false := by
  have hwf := t.wellFormed s hs
  let c : Claim := ⟨e, width, s.name, hwf.fits hc⟩
  have hmem : c.style ∈ t.vectorStyles e := mem_vectorStyles.mpr ⟨c, mem_claims.mpr ⟨s, hs, hc, rfl⟩, rfl, rfl⟩
  refine ⟨c.style, resolveWidth_of_mem (List.mem_cons_of_mem _ hmem), rfl, rfl, rfl, ?_⟩
  exact beq_eq_false_iff_ne.mpr hwf.unreserved

theorem resolveWidth_of_not_claims {e : Element} {width : Nat} (hw : width ≠ e.bits)
    (hn : ∀ s ∈ t.specs, ¬ s.Claims e width) :
    t.resolveWidth e width = .error (.unsupportedVectorLength e width) := by
  cases h : t.resolveWidth e width with
  | error err => rw [resolveWidth_error t e width h]
  | ok style =>
    obtain ⟨hs, rfl⟩ := resolveWidth_eq_ok_iff.mp h
    rcases List.mem_cons.mp hs with rfl | hs
    · exact absurd rfl hw
    · obtain ⟨c, hc, rfl, rfl⟩ := mem_vectorStyles.mp hs
      obtain ⟨s, hs, hclaims, -⟩ := mem_claims.mp hc
      exact absurd hclaims (hn s hs)

/-! ## acceptance -/

theorem exists_ofSpecs_iff : (∃ t, ofSpecs specs = .ok t) ↔ ∃ claims, acceptAll specs [] = .ok claims := by
  constructor
  · rintro ⟨t, h⟩
    obtain rfl := ofSpecs_eq_ok_iff.mp h
    exact ⟨t.claims, t.built⟩
  · rintro ⟨claims, h⟩
    exact ⟨⟨specs, claims, h⟩, ofSpecs_eq_ok_iff.mpr rfl⟩

theorem ofSpecs_isOk_iff :
    (∃ t, ofSpecs specs = .ok t) ↔ (∀ s ∈ specs, s.WellFormed) ∧ specs.Pairwise Spec.Apart := by
  rw [exists_ofSpecs_iff]
  constructor
  · rintro ⟨claims, h⟩
    obtain ⟨hwf, hapart, -, -⟩ := acceptAll_eq_ok_iff.mp h
    exact ⟨hwf, hapart⟩
  · rintro ⟨hwf, hapart⟩
    exact ⟨_, acceptAll_eq_ok_iff.mpr ⟨hwf, hapart, fun _ _ _ _ _ => rfl, rfl⟩⟩

theorem ofSpecs_isOk_of_sublist {others : List Spec} (h : others.Sublist specs)
    (hs : ∃ t, ofSpecs specs = .ok t) : ∃ t, ofSpecs others = .ok t := by
  obtain ⟨hwf, hapart⟩ := ofSpecs_isOk_iff.mp hs
  exact ofSpecs_isOk_iff.mpr ⟨fun s hs => hwf s (h.subset hs), hapart.sublist h⟩

/-- In another order the same list makes a table that answers the same. -/
theorem ofSpecs_of_perm {others : List Spec} (h : others.Perm specs) (ht : ofSpecs specs = .ok t) :
    ∃ u, ofSpecs others = .ok u ∧ u.Alike t := by
  obtain ⟨hwf, hapart⟩ := ofSpecs_isOk_iff.mp ⟨t, ht⟩
  obtain ⟨u, hu⟩ : ∃ u, ofSpecs others = .ok u := ofSpecs_isOk_iff.mpr
    ⟨fun s hs => hwf s (h.mem_iff.mp hs), (h.pairwise_iff Spec.Apart.symm).mpr hapart⟩
  have hspecs : u.specs.Perm t.specs := by
    rw [ofSpecs_eq_ok_iff.mp hu, ofSpecs_eq_ok_iff.mp ht]
    exact h
  exact ⟨u, hu, alike_of_perm hspecs⟩

/-- The shortest prefix that makes no table decides, and what is behind it does not matter. -/
theorem ofSpecs_refused {err : Error} (h : ofSpecs specs = .error err) :
    ∃ before s after, specs = before ++ s :: after ∧ (∃ t, ofSpecs before = .ok t) ∧
      (∀ later, ofSpecs (before ++ s :: later) = .error err) ∧
      ∀ e width first second, err = .duplicateExtensionWidth e width first second →
        (∃ f ∈ before, f.Claims e width ∧ f.name = first) ∧ s.Claims e width ∧ s.name = second := by
  obtain ⟨before, s, after, claims, rfl, hb, hs⟩ := acceptAll_eq_error_iff.mp (ofSpecs_eq_error_iff.mp h)
  refine ⟨before, s, after, rfl, exists_ofSpecs_iff.mpr ⟨claims, hb⟩, fun later => ?_, ?_⟩
  · exact ofSpecs_eq_error_iff.mpr (acceptAll_eq_error_iff.mpr ⟨before, s, later, claims, rfl, hb, hs⟩)
  · rintro e width first second rfl
    obtain ⟨hc, rfl, c, hp, rfl⟩ := accept_duplicate hs
    let t : Table := ⟨before, claims, hb⟩
    obtain ⟨hm, rfl, rfl⟩ := mem_of_provider? hp
    have hmem : c ∈ t.claims := hm
    obtain ⟨f, hf, hfc, hft⟩ := mem_claims.mp hmem
    exact ⟨⟨f, hf, hfc, hft.symm⟩, hc, rfl⟩

/-- **A table is just what its descriptions claim.**  A list makes one exactly if every description in it
is well-formed and no two claim the same width of an element type.  A width other than the type's own is
found exactly if it is claimed, as a style under the claiming extension's name; and the order of the list
does not matter.  A list that makes no table is refused as its shortest such prefix is, whatever follows;
where two extensions provide the same, the earlier one is named first. -/
theorem ofSpecs_exact (specs : List Spec) :
    ((∃ t, ofSpecs specs = .ok t) ↔ (∀ s ∈ specs, s.WellFormed) ∧ specs.Pairwise Spec.Apart) ∧
    (∀ t, ofSpecs specs = .ok t →
      (∀ e width, width ≠ e.bits →
        (∀ s ∈ specs, s.Claims e width →
          ∃ style, t.resolveWidth e width = .ok style ∧ style.element = e ∧ style.tag = s.name ∧
            style.width = width ∧ style.isScalar = false) ∧
        ((∀ s ∈ specs, ¬ s.Claims e width) →
          t.resolveWidth e width = .error (.unsupportedVectorLength e width))) ∧
      ∀ others : List Spec, others.Perm specs → ∃ u, ofSpecs others = .ok u ∧ u.Alike t) ∧
    ∀ err, ofSpecs specs = .error err →
      ∃ before s after, specs = before ++ s :: after ∧
        (∀ p, p <+: before → ∃ t, ofSpecs p = .ok t) ∧
        (∀ later, ofSpecs (before ++ s :: later) = .error err) ∧
        ∀ e width first second, err = .duplicateExtensionWidth e width first second →
          (∃ f ∈ before, f.Claims e width ∧ f.name = first) ∧ s.Claims e width ∧ s.name = second := by
  refine ⟨ofSpecs_isOk_iff, fun t ht => ⟨fun e width hw => ?_, fun _ h => ofSpecs_of_perm h ht⟩, ?_⟩
  · obtain rfl := ofSpecs_eq_ok_iff.mp ht
    exact ⟨fun s hs hc => resolveWidth_of_claims hs hc, resolveWidth_of_not_claims hw⟩
  · intro err h
    obtain ⟨before, s, after, hspecs, hb, hlater, hdup⟩ := ofSpecs_refused h
    exact ⟨before, s, after, hspecs, fun p hp => ofSpecs_isOk_of_sublist hp.sublist hb, hlater, hdup⟩

example : ofSpecs [⟨"sse", 128, ["sse4.1"], none⟩, ⟨"neon", 128, ["neon"], some [.f32]⟩, ⟨"", 0, [], none⟩] =
    .error (.duplicateExtensionWidth .f32 128 "sse" "neon") := rfl

end Offload.Table
