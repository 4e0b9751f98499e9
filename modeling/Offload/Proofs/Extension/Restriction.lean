import Offload.Extension.Source
import Offload.Proofs.Extension.Construction

/-!
# Tables for certain processor flags

A restricted table is built anew from the descriptions that are left, by the same rules as any other.  What
makes a list of descriptions a table holds of every part of it, so this cannot fail.

* `Spec.usable_of_common`     usable with the flags that two lists share is usable with either;
* `exists_restrict`, `specs_of_restrict`  there is a restricted table, and of what it consists;
* `restrict_restrict`         one restriction after the other is a single one;
* `resolveWidth_eq_ok_iff_claims`  what a table finds, read off its descriptions;
* `restriction_exact`         all of it;
* `Recipe.make_of_flags`      a configuration with flags restricts the table of its source by them.
-/

namespace Offload

namespace Extension

namespace Spec

variable {s : Spec} {F G : List String}

theorem usable_mono (h : ∀ f ∈ F, f ∈ G) (hs : s.usable F = true) : s.usable G = true :=
  usable_iff.mpr fun f hf => h f (usable_iff.mp hs f hf)

theorem usable_congr (h : ∀ f, f ∈ F ↔ f ∈ G) : s.usable F = s.usable G :=
  Bool.eq_iff_iff.mpr ⟨usable_mono fun f => (h f).mp, usable_mono fun f => (h f).mpr⟩

theorem usable_of_common {both : List String} (h : ∀ f, f ∈ both ↔ f ∈ F ∧ f ∈ G) :
    s.usable both = (s.usable F && s.usable G) := by
  rw [Bool.eq_iff_iff, Bool.and_eq_true, usable_iff, usable_iff, usable_iff]
  simp only [h, forall_and]

end Spec

/-- With flags a configuration restricts the table of its file, or the builtin one, by them. -/
theorem Recipe.make_of_flags (files : Files) (present : List String) {c : Config} {flags : List String}
    (h : c.flags = some flags) :
    ((ofConfig present c).make files).1 =
      ((match c.path with
        | some path => Source.file path
        | none => Source.builtin).load files).1 >>= (·.restrict flags) := by
  have hrestrict (t : Table) : (restrictAll t [flags]).1 = t.restrict flags := by
    unfold restrictAll
    cases hr : t.restrict flags <;> rfl
  have hmake (s : Source) : (make files ⟨s, [flags]⟩).1 = (s.load files).1 >>= (·.restrict flags) := by
    unfold make
    rcases s.load files with ⟨result, events⟩
    cases result with
    | error err => rfl
    | ok t => exact hrestrict t
  unfold ofConfig
  rw [h]
  cases c.path <;> exact hmake _

@[simp] theorem Source.built_fst (r : Except Error Table) : (built r).1 = r := by cases r <;> rfl

/-- why the file of a table is refused -/
theorem Source.load_file_eq_error_iff {files : Files} {path : String} {err : Error} :
    ((Source.file path).load files).1 = .error err ↔
      (∃ fault, files.read path = .error fault ∧
        err = .invalidConfig s!"cannot read {path}: {fault.message}") ∨
      ∃ contents, files.read path = .ok contents ∧ Table.ofText contents = .error err := by
  cases hread : files.read path with
  | ok contents =>
    simp only [load, hread, built_fst]
    constructor
    · exact fun h => .inr ⟨contents, rfl, h⟩
    · rintro (⟨_, h, -⟩ | ⟨_, h, herr⟩)
      · cases h
      · cases h
        exact herr
  | error fault =>
    simp only [load, hread]
    constructor
    · intro h
      cases h
      exact .inl ⟨fault, rfl, rfl⟩
    · rintro (⟨_, h, rfl⟩ | ⟨_, h, -⟩)
      · cases h
        rfl
      · cases h

end Extension

namespace Table

open Extension

variable {t u v : Table} {e : Element} {s : Style} {width : Nat} {F G : List String}

/-- The vector units of x86 processors make a table. -/
theorem exists_builtin : ∃ t, builtin = .ok t := ⟨_, rfl⟩

/-! ## what is left of a table -/

theorem specs_of_restrict (h : t.restrict F = .ok u) : u.specs = t.specs.filter (·.usable F) :=
  ofSpecs_eq_ok_iff.mp h

theorem mem_specs_of_restrict (h : t.restrict F = .ok u) {p : Spec} :
    p ∈ u.specs ↔ p ∈ t.specs ∧ ∀ f ∈ p.flags, f ∈ F := by
  rw [specs_of_restrict h, List.mem_filter, Spec.usable_iff]

theorem exists_restrict (t : Table) (F : List String) : ∃ u, t.restrict F = .ok u :=
  ofSpecs_isOk_of_sublist List.filter_sublist ⟨t, ofSpecs_eq_ok_iff.mpr rfl⟩

theorem restrict_congr (h : ∀ f, f ∈ F ↔ f ∈ G) : t.restrict F = t.restrict G := by
  unfold restrict
  simp only [Spec.usable_congr h]

theorem restrict_restrict {both : List String} (h : ∀ f, f ∈ both ↔ f ∈ F ∧ f ∈ G)
    (hu : t.restrict F = .ok u) : u.restrict G = t.restrict both := by
  have hfilter : (t.specs.filter (·.usable F)).filter (·.usable G) = t.specs.filter (·.usable both) := by
    rw [List.filter_filter]
    exact List.filter_congr fun p _ => by rw [Spec.usable_of_common h, Bool.and_comm]
  unfold restrict
  rw [specs_of_restrict hu, hfilter]

/-! ## what is found in it -/

/-- A vector style stands for a claim of one of the descriptions. -/
theorem mem_vectorStyles_iff_claims :
    s ∈ t.vectorStyles e ↔ s.element = e ∧ ∃ p ∈ t.specs, p.Claims e s.width ∧ s.tag = p.name := by
  rw [mem_vectorStyles]
  constructor
  · rintro ⟨c, hc, rfl, rfl⟩
    exact ⟨rfl, mem_claims.mp hc⟩
  · rintro ⟨rfl, p, hp, hclaims, htag⟩
    have fits := (t.wellFormed p hp).fits hclaims
    exact ⟨⟨s.element, s.width, s.tag, fits⟩, mem_claims.mpr ⟨p, hp, hclaims, htag⟩, rfl, rfl⟩

theorem resolveWidth_eq_ok_iff_claims (hw : width ≠ e.bits) :
    t.resolveWidth e width = .ok s ↔
      s.element = e ∧ s.width = width ∧ ∃ p ∈ t.specs, p.Claims e width ∧ s.tag = p.name := by
  rw [resolveWidth_eq_ok_iff]
  constructor
  · rintro ⟨hs, rfl⟩
    rcases List.mem_cons.mp hs with rfl | hs
    · exact absurd rfl hw
    · obtain ⟨he, hclaims⟩ := mem_vectorStyles_iff_claims.mp hs
      exact ⟨he, rfl, hclaims⟩
  · rintro ⟨he, rfl, hclaims⟩
    exact ⟨List.mem_cons_of_mem _ (mem_vectorStyles_iff_claims.mpr ⟨he, hclaims⟩), rfl⟩

/-- The same style is found, as long as its extension is still there. -/
theorem resolveWidth_of_restrict (h : t.restrict F = .ok u) (hw : width ≠ e.bits) :
    u.resolveWidth e width = .ok s ↔ t.resolveWidth e width = .ok s ∧
      ∃ p ∈ t.specs, p.Claims e width ∧ s.tag = p.name ∧ ∀ f ∈ p.flags, f ∈ F := by
  rw [resolveWidth_eq_ok_iff_claims hw, resolveWidth_eq_ok_iff_claims hw]
  constructor
  · rintro ⟨he, hs, p, hp, hclaims, htag⟩
    obtain ⟨hp, hflags⟩ := (mem_specs_of_restrict h).mp hp
    exact ⟨⟨he, hs, p, hp, hclaims, htag⟩, p, hp, hclaims, htag, hflags⟩
  · rintro ⟨⟨he, hs, -⟩, p, hp, hclaims, htag, hflags⟩
    exact ⟨he, hs, p, (mem_specs_of_restrict h).mpr ⟨hp, hflags⟩, hclaims, htag⟩

theorem styles_mono (hu : t.restrict F = .ok u) (hv : t.restrict G = .ok v) (h : ∀ f ∈ F, f ∈ G)
    (hs : s ∈ u.styles e) : s ∈ v.styles e := by
  rcases List.mem_cons.mp hs with rfl | hs
  · exact List.mem_cons_self
  · obtain ⟨he, p, hp, hclaims, htag⟩ := mem_vectorStyles_iff_claims.mp hs
    obtain ⟨hp, hflags⟩ := (mem_specs_of_restrict hu).mp hp
    have hpv : p ∈ v.specs := (mem_specs_of_restrict hv).mpr ⟨hp, fun f hf => h f (hflags f hf)⟩
    exact List.mem_cons_of_mem _ (mem_vectorStyles_iff_claims.mpr ⟨he, p, hpv, hclaims, htag⟩)

/-! ## all of it -/

/-- **A table can always be restricted, and that is to intersect sets of flags.**  What is left are the
descriptions all of whose flags are given, in their order.  A width is found with the same style as before if
its extension is left, and else it is not found.  Only the set of the flags matters, and two restrictions are
the one by the flags in both.  More flags leave more styles.  So a configuration with flags fails for its
file, or not at all. -/
theorem restriction_exact (F : List String) :
    (∀ t : Table, ∃ u, t.restrict F = .ok u ∧
      u.specs = t.specs.filter (fun p => ∀ f ∈ p.flags, f ∈ F) ∧
      (∀ e width, width ≠ e.bits →
        (∀ s, u.resolveWidth e width = .ok s ↔ t.resolveWidth e width = .ok s ∧
          ∃ p ∈ t.specs, p.Claims e width ∧ s.tag = p.name ∧ ∀ f ∈ p.flags, f ∈ F) ∧
        ((∀ p ∈ t.specs, p.Claims e width → ∃ f ∈ p.flags, f ∉ F) →
          u.resolveWidth e width = .error (.unsupportedVectorLength e width))) ∧
      (∀ G, (∀ f, f ∈ F ↔ f ∈ G) → t.restrict G = .ok u) ∧
      (∀ G both, (∀ f, f ∈ both ↔ f ∈ F ∧ f ∈ G) →
        u.restrict G = t.restrict both ∧ (t.restrict G >>= (·.restrict F)) = t.restrict both) ∧
      u.restrict F = .ok u ∧
      ∀ G, (∀ f ∈ F, f ∈ G) → ∃ v, t.restrict G = .ok v ∧ ∀ e, ∀ s ∈ u.styles e, s ∈ v.styles e) ∧
    ∀ (files : Files) (present : List String) (c : Config), c.flags = some F →
      ∀ err, ((Recipe.ofConfig present c).make files).1 = .error err ↔
        ∃ path, c.path = some path ∧
          ((∃ fault, files.read path = .error fault ∧
              err = .invalidConfig s!"cannot read {path}: {fault.message}") ∨
            ∃ contents, files.read path = .ok contents ∧ ofText contents = .error err) := by
  constructor
  · intro t
    obtain ⟨u, hu⟩ := t.exists_restrict F
    refine ⟨u, hu, ?_, fun e width hw => ⟨fun s => resolveWidth_of_restrict hu hw, fun hn => ?_⟩,
      fun G h => restrict_congr h ▸ hu, fun G both h => ⟨restrict_restrict h hu, ?_⟩, ?_, fun G h => ?_⟩
    · rw [specs_of_restrict hu]
      exact List.filter_congr fun p _ => Bool.eq_iff_iff.mpr (Spec.usable_iff.trans decide_eq_true_iff.symm)
    · refine resolveWidth_of_not_claims hw fun p hp hclaims => ?_
      obtain ⟨hp, hflags⟩ := (mem_specs_of_restrict hu).mp hp
      obtain ⟨f, hf, hnot⟩ := hn p hp hclaims
      exact hnot (hflags f hf)
    · obtain ⟨v, hv⟩ := t.exists_restrict G
      rw [hv]
      exact restrict_restrict (fun f => (h f).trans and_comm) hv
    · exact (restrict_restrict (fun f => (and_self_iff).symm) hu).trans hu
    · obtain ⟨v, hv⟩ := t.exists_restrict G
      exact ⟨v, hv, fun e s => styles_mono hu hv h⟩
  · intro files present c hc err
    have hbind (r : Except Error Table) : (r >>= (·.restrict F)) = .error err ↔ r = .error err := by
      cases r with
      | error err' => exact Iff.rfl
      | ok t =>
        obtain ⟨u, hu⟩ := t.exists_restrict F
        exact ⟨fun h => absurd (hu.symm.trans h) nofun, nofun⟩
    rw [Recipe.make_of_flags files present hc, hbind]
    cases hpath : c.path with
    | none =>
      obtain ⟨t, ht⟩ := exists_builtin
      have hload : (Source.builtin.load files).1 = .ok t := (Source.built_fst _).trans ht
      dsimp only
      rw [hload]
      exact ⟨fun h => (nomatch h), fun ⟨_, h, _⟩ => (nomatch h)⟩
    | some path =>
      exact Source.load_file_eq_error_iff.trans
        ⟨fun h => ⟨path, rfl, h⟩, fun ⟨_, hp, h⟩ => Option.some.inj hp ▸ h⟩

end Table

end Offload
