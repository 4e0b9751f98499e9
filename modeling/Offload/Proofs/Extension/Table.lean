import Offload.Host.Executor
import Offload.Proofs.Extension.Acceptance

/-!
# The styles of a table

No width of an element type has two providers, so a style of a table is found again by its width, and
all that can be asked of a table speaks of the same styles.

* `Table.claims_eq`        what a table claims is what its descriptions enter; no two claims are for the
                           same (`Distinct`), so each is the one that is found for its type and width
                           (`provider?_eq_some_iff`);
* `pairwise_styles`        styles come from narrow to wide, the scalar one first;
* `resolveWidth_eq_ok_iff`, `resolve_eq_ok_iff`  to find something is to find a style of the table;
* `checkStyle_of_mem`      a host executor takes the styles of its table;
* `queries_agree`          all of it, for tables whose widths are sizes.
-/

namespace Offload

namespace Extension

/-- No two claims are for the same width of an element type. -/
def Distinct (claims : List Claim) : Prop :=
  claims.Pairwise fun c d => c.element = d.element → c.width ≠ d.width

variable {claims : List Claim} {s : Spec}

/-- A description enters each of its types once. -/
theorem Spec.WellFormed.distinct_entries (h : s.WellFormed) : Distinct s.entries := by
  unfold Distinct Spec.entries
  rw [List.pairwise_filterMap]
  refine h.nodup_candidates.imp fun hne c hc d hd he => ?_
  rw [Spec.entry?_eq_some_iff] at hc hd
  exact absurd (hc.1.symm.trans (he.trans hd.1)) hne

theorem Distinct.eq_of_mem (h : Distinct claims) {c d : Claim} (hc : c ∈ claims) (hd : d ∈ claims)
    (he : c.element = d.element) (hw : c.width = d.width) : c = d := by
  induction claims with
  | nil => cases hc
  | cons a claims ih =>
    obtain ⟨ha, h⟩ := List.pairwise_cons.mp h
    rcases List.mem_cons.mp hc with rfl | hcs
    · rcases List.mem_cons.mp hd with rfl | hds
      · rfl
      · exact absurd hw (ha d hds he)
    · rcases List.mem_cons.mp hd with rfl | hds
      · exact absurd hw.symm (ha c hcs he.symm)
      · exact ih h hcs hds

theorem Distinct.provider?_eq_some_iff (h : Distinct claims) {e : Element} {width : Nat} {c : Claim} :
    provider? claims e width = some c ↔ c ∈ claims ∧ c.element = e ∧ c.width = width := by
  refine ⟨mem_of_provider?, ?_⟩
  rintro ⟨hc, rfl, rfl⟩
  cases hp : provider? claims c.element c.width with
  | none => exact absurd rfl (provider?_eq_none_iff.mp hp c hc rfl)
  | some d =>
    obtain ⟨hd, he, hw⟩ := mem_of_provider? hp
    rw [h.eq_of_mem hd hc he hw]

end Extension

theorem Element.bits_lt_limit (e : Element) : e.bits < Size.limit := by cases e <;> decide

theorem Style.lanes_eq_iff {s : Style} {lanes : Nat} :
    s.lanes = lanes ↔ s.width = s.element.bits * lanes := by
  rw [Nat.mul_comm, ← s.lanes_mul_bits]
  exact ⟨fun h => by rw [h], Nat.eq_of_mul_eq_mul_right s.element.bits_pos⟩

namespace Table

open Extension

variable {t : Table} {e : Element} {s : Style} {width : Nat}

/-! ## claims -/

theorem wellFormed (t : Table) : ∀ s ∈ t.specs, s.WellFormed := (acceptAll_eq_ok_iff.mp t.built).1

theorem apart (t : Table) : t.specs.Pairwise Spec.Apart := (acceptAll_eq_ok_iff.mp t.built).2.1

theorem claims_eq (t : Table) : t.claims = t.specs.flatMap Spec.entries :=
  (acceptAll_eq_ok_iff.mp t.built).2.2.2

theorem mem_claims {c : Claim} :
    c ∈ t.claims ↔ ∃ s ∈ t.specs, s.Claims c.element c.width ∧ c.tag = s.name := by
  rw [claims_eq, List.mem_flatMap]
  simp only [Spec.mem_entries]

theorem distinct_claims (t : Table) : Distinct t.claims := by
  unfold Distinct
  rw [claims_eq, List.pairwise_flatMap]
  refine ⟨fun s hs => (t.wellFormed s hs).distinct_entries, t.apart.imp fun h c hc d hd he hw => ?_⟩
  obtain ⟨hc, -⟩ := Spec.mem_entries.mp hc
  obtain ⟨hd, -⟩ := Spec.mem_entries.mp hd
  exact h _ _ hc (he ▸ hw ▸ hd)

theorem provider?_eq_some_iff {c : Claim} :
    provider? t.claims e width = some c ↔ c ∈ t.claims ∧ c.element = e ∧ c.width = width :=
  t.distinct_claims.provider?_eq_some_iff

/-! ## styles -/

theorem mem_vectorStyles : s ∈ t.vectorStyles e ↔ ∃ c ∈ t.claims, c.element = e ∧ c.style = s := by
  unfold vectorStyles
  rw [List.mem_map]
  constructor
  · rintro ⟨c, hc, hs⟩
    rw [List.mem_mergeSort, List.mem_filter, decide_eq_true_eq] at hc
    exact ⟨c, hc.1, hc.2, hs⟩
  · rintro ⟨c, hc, he, hs⟩
    refine ⟨c, ?_, hs⟩
    rw [List.mem_mergeSort, List.mem_filter, decide_eq_true_eq]
    exact ⟨hc, he⟩

theorem element_of_mem (h : s ∈ t.styles e) : s.element = e := by
  rcases List.mem_cons.mp h with rfl | h
  · rfl
  · obtain ⟨c, -, he, rfl⟩ := mem_vectorStyles.mp h
    exact he

/-- A vector style holds several whole lanes. -/
theorem fits_of_mem_vectorStyles (h : s ∈ t.vectorStyles e) : Fits e s.width := by
  obtain ⟨c, -, rfl, rfl⟩ := mem_vectorStyles.mp h
  exact c.fits

theorem pairwise_vectorStyles (t : Table) (e : Element) :
    (t.vectorStyles e).Pairwise (·.width < ·.width) := by
  let claims := t.claims.filter (·.element = e)
  have hle : (claims.mergeSort (·.width ≤ ·.width)).Pairwise (·.width ≤ ·.width) := by
    have hs := @List.pairwise_mergeSort Claim (fun c d => c.width ≤ d.width)
      (by simp only [decide_eq_true_eq]; exact fun _ _ _ => Nat.le_trans)
      (by simp only [Bool.or_eq_true, decide_eq_true_eq]; exact fun _ _ => Nat.le_total ..) claims
    simpa only [decide_eq_true_eq] using hs
  have hne : (claims.mergeSort (·.width ≤ ·.width)).Pairwise (·.width ≠ ·.width) := by
    refine (List.Perm.pairwise_iff Ne.symm (List.mergeSort_perm ..)).mpr ?_
    refine (t.distinct_claims.filter _).imp_of_mem fun hc hd h => ?_
    rw [List.mem_filter, decide_eq_true_eq] at hc hd
    exact h (hc.2.trans hd.2.symm)
  show (List.map _ _).Pairwise _
  rw [List.pairwise_map]
  exact (hle.and hne).imp fun h => Nat.lt_of_le_of_ne h.1 h.2

theorem pairwise_styles (t : Table) (e : Element) : (t.styles e).Pairwise (·.width < ·.width) :=
  List.pairwise_cons.mpr ⟨fun _ hs => (fits_of_mem_vectorStyles hs).2, t.pairwise_vectorStyles e⟩

theorem widest_eq (t : Table) (e : Element) : (t.styles e).getLast? = some (t.widest e) :=
  List.getLast?_cons

theorem narrowest_eq (t : Table) (e : Element) :
    t.narrowest e = ((t.styles e)[1]?).getD (.scalar e) := by
  show ((t.vectorStyles e).head?).getD _ = _
  rw [List.head?_eq_getElem?]
  rfl

/-! ## looking up -/

/-- What is found for a width is a style of the table. -/
theorem resolveWidth_eq_ok_iff : t.resolveWidth e width = .ok s ↔ s ∈ t.styles e ∧ s.width = width := by
  unfold resolveWidth
  by_cases hw : width = e.bits
  · rw [if_pos hw, Except.ok.injEq]
    constructor
    · rintro rfl
      exact ⟨List.mem_cons_self, hw.symm⟩
    · rintro ⟨hs, rfl⟩
      rcases List.mem_cons.mp hs with rfl | hs
      · rfl
      · exact absurd hw (Nat.ne_of_gt (fits_of_mem_vectorStyles hs).2)
  · rw [if_neg hw]
    have hmem : (∃ c, provider? t.claims e width = some c ∧ c.style = s) ↔
        s ∈ t.styles e ∧ s.width = width := by
      constructor
      · rintro ⟨c, hp, rfl⟩
        obtain ⟨hc, he, hw⟩ := provider?_eq_some_iff.mp hp
        exact ⟨List.mem_cons_of_mem _ (mem_vectorStyles.mpr ⟨c, hc, he, rfl⟩), hw⟩
      · rintro ⟨hs, rfl⟩
        rcases List.mem_cons.mp hs with rfl | hs
        · exact absurd rfl hw
        · obtain ⟨c, hc, he, rfl⟩ := mem_vectorStyles.mp hs
          exact ⟨c, provider?_eq_some_iff.mpr ⟨hc, he, rfl⟩, rfl⟩
    rw [← hmem]
    cases provider? t.claims e width with
    | none => exact ⟨fun h => (nomatch h), fun ⟨_, h, _⟩ => (nomatch h)⟩
    | some c =>
      dsimp only
      rw [Except.ok.injEq]
      exact ⟨fun h => ⟨c, rfl, h⟩, fun ⟨_, rfl, h⟩ => h⟩

theorem resolveWidth_error (t : Table) (e : Element) (width : Nat) {err : Error}
    (h : t.resolveWidth e width = .error err) : err = .unsupportedVectorLength e width := by
  unfold resolveWidth at h
  split at h
  · cases h
  · split at h
    · cases h
    · cases h
      rfl

/-- A style of a table is found again by its width. -/
theorem resolveWidth_of_mem (h : s ∈ t.styles e) : t.resolveWidth e s.width = .ok s :=
  resolveWidth_eq_ok_iff.mpr ⟨h, rfl⟩

/-- A lane count stands for a width, as long as that is a size. -/
theorem resolve_of_lt {lanes : Nat} (h : e.bits * lanes < Size.limit) :
    t.resolve e lanes = t.resolveWidth e (e.bits * lanes) := by
  unfold resolve
  by_cases hl : lanes = 1
  · rw [if_pos hl, hl, Nat.mul_one]
    exact (if_pos rfl).symm
  · rw [if_neg hl, Size.mul?_eq_some h]

theorem resolve_of_le {lanes : Nat} (h : Size.limit ≤ e.bits * lanes) :
    t.resolve e lanes = .error (.unsupportedVectorLength e Size.top) := by
  have hl : lanes ≠ 1 := by
    rintro rfl
    rw [Nat.mul_one] at h
    exact absurd h (Nat.not_le.mpr e.bits_lt_limit)
  unfold resolve
  rw [if_neg hl, Size.mul?_eq_none h]

section
variable (ht : ∀ s ∈ t.specs, s.width < Size.limit)
include ht

theorem width_lt_of_mem (h : s ∈ t.styles e) : s.width < Size.limit := by
  rcases List.mem_cons.mp h with rfl | h
  · exact e.bits_lt_limit
  · obtain ⟨c, hc, -, rfl⟩ := mem_vectorStyles.mp h
    obtain ⟨s, hs, hclaims, -⟩ := mem_claims.mp hc
    have hw : c.style.width = s.width := hclaims.1
    rw [hw]
    exact ht s hs

/-- What is found for a lane count is a style of the table. -/
theorem resolve_eq_ok_iff {lanes : Nat} :
    t.resolve e lanes = .ok s ↔ s ∈ t.styles e ∧ s.lanes = lanes := by
  have hlanes (hs : s ∈ t.styles e) : s.lanes = lanes ↔ s.width = e.bits * lanes := by
    rw [Style.lanes_eq_iff, element_of_mem hs]
  by_cases h : e.bits * lanes < Size.limit
  · rw [resolve_of_lt h, resolveWidth_eq_ok_iff]
    exact and_congr_right fun hs => (hlanes hs).symm
  · rw [resolve_of_le (Nat.not_lt.mp h)]
    refine ⟨fun he => (nomatch he), fun ⟨hs, hl⟩ => ?_⟩
    have hw := width_lt_of_mem ht hs
    rw [(hlanes hs).mp hl] at hw
    exact absurd hw h

theorem mem_parallelism {lanes : Nat} :
    lanes ∈ t.parallelism e ↔ ∃ s, t.resolve e lanes = .ok s := by
  unfold parallelism
  rw [List.mem_map]
  simp only [resolve_eq_ok_iff ht]

end

theorem resolve_error {lanes : Nat} {err : Error} (h : t.resolve e lanes = .error err) :
    err = .unsupportedVectorLength e (min (lanes * e.bits) Size.top) := by
  rw [Nat.mul_comm]
  by_cases hl : e.bits * lanes < Size.limit
  · have hle : e.bits * lanes ≤ Size.top := Nat.le_sub_one_of_lt hl
    rw [resolve_of_lt hl] at h
    rw [resolveWidth_error t e _ h, Nat.min_eq_left hle]
  · have hle : Size.top ≤ e.bits * lanes := Nat.le_trans (Nat.sub_le ..) (Nat.not_lt.mp hl)
    rw [resolve_of_le (Nat.not_lt.mp hl)] at h
    cases h
    rw [Nat.min_eq_right hle]

theorem pairwise_parallelism (t : Table) (e : Element) : (t.parallelism e).Pairwise (· < ·) := by
  unfold parallelism
  rw [List.pairwise_map]
  refine (t.pairwise_styles e).imp_of_mem fun {a b} ha hb h => ?_
  rw [← a.lanes_mul_bits, ← b.lanes_mul_bits, element_of_mem ha, element_of_mem hb] at h
  exact Nat.lt_of_mul_lt_mul_right h

/-- **All queries of a table speak of one set of styles**, as long as its widths are sizes. -/
theorem queries_agree (t : Table) (ht : ∀ s ∈ t.specs, s.width < Size.limit) (e : Element) :
    (t.styles e).head? = some (.scalar e) ∧
    (t.styles e).Pairwise (·.width < ·.width) ∧
    (∀ s ∈ (t.styles e).tail, e.bits < s.width ∧ e.bits ∣ s.width) ∧
    (∀ s, s ∈ t.styles e ↔ t.resolveWidth e s.width = .ok s) ∧
    (∀ s, s ∈ t.styles e ↔ t.resolve e s.lanes = .ok s) ∧
    (∀ lanes s, t.resolve e lanes = .ok s → s.element = e ∧ s.lanes = lanes) ∧
    (∀ lanes err, t.resolve e lanes = .error err →
      err = .unsupportedVectorLength e (min (lanes * e.bits) Size.top)) ∧
    (t.parallelism e).Pairwise (· < ·) ∧
    (t.parallelism e).head? = some 1 ∧
    (∀ lanes, lanes ∈ t.parallelism e ↔ ∃ s, t.resolve e lanes = .ok s) ∧
    (t.styles e).getLast? = some (t.widest e) ∧
    t.narrowest e = ((t.styles e)[1]?).getD (.scalar e) ∧
    ∀ s ∈ t.styles e, Style.ofWidth e s.tag s.width = .ok s ∧ s.width < Size.limit := by
  refine ⟨rfl, t.pairwise_styles e, fun s hs => (fits_of_mem_vectorStyles hs).symm, fun s => ?_,
    fun s => ?_, fun lanes s h => ?_, fun _ _ => resolve_error, t.pairwise_parallelism e, ?_,
    fun _ => mem_parallelism ht, t.widest_eq e, t.narrowest_eq e, fun s hs => ⟨?_, width_lt_of_mem ht hs⟩⟩
  · rw [resolveWidth_eq_ok_iff]
    exact ⟨fun h => ⟨h, rfl⟩, And.left⟩
  · rw [resolve_eq_ok_iff ht]
    exact ⟨fun h => ⟨h, rfl⟩, And.left⟩
  · obtain ⟨hs, hl⟩ := (resolve_eq_ok_iff ht).mp h
    exact ⟨element_of_mem hs, hl⟩
  · show some (Style.scalar e).lanes = _
    rw [Style.lanes_scalar]
  · exact Style.ofWidth_eq_ok_iff.mpr ⟨element_of_mem hs, rfl, rfl⟩

/-- one extension for every type, and one for a single type with the widest register there can be -/
def sample : Table :=
  (ofSpecs [⟨"wide", 18446744073709551552, [], some [.u64]⟩, ⟨"sse", 128, ["sse4.1"], none⟩]).toOption.get
    rfl

/-- Two lanes can be had and so can as many as there are in the widest register; three cannot. -/
theorem queries_agree_sample : (∀ s ∈ sample.specs, s.width < Size.limit) ∧
    2 ∈ sample.parallelism .u64 ∧ 288230376151711743 ∈ sample.parallelism .u64 ∧
    3 ∉ sample.parallelism .u64 ∧ (sample.styles .u64).getLast? = some (sample.widest .u64) := by
  have hs : ∀ s ∈ sample.specs, s.width < Size.limit := by decide
  obtain ⟨-, -, -, -, -, -, -, -, -, hmem, hlast, -⟩ := queries_agree sample hs .u64
  refine ⟨hs, (hmem 2).mpr ⟨_, rfl⟩, (hmem _).mpr ⟨_, rfl⟩, fun h => ?_, hlast⟩
  obtain ⟨s, hs⟩ := (hmem 3).mp h
  cases hs

end Table

/-- A host executor takes the styles of its table. -/
theorem Host.Executor.checkStyle_of_mem {x : Host.Executor} {e : Element} {s : Style}
    (h : s ∈ x.table.styles e) : x.checkStyle s = .ok () := by
  unfold checkStyle
  split
  · rfl
  · rw [Table.element_of_mem h, Table.resolveWidth_of_mem h]
    exact if_pos rfl

end Offload
