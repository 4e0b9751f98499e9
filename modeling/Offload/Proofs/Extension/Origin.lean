import Offload.Proofs.Extension.Restriction

/-!
# Where styles come from

A style is made for single lanes or for the accelerator, or it is found in a table.  No table has the
scalar tag to give away, so a style that carries it is the scalar one.

* `Table.Sized`       all widths of a table are sizes;
* `Style.Obtainable`  all ways to come by a style (`Obtainable.cases`);
* `Obtainable.width_lt`, `Obtainable.eq_scalar`  what holds of all these styles.
-/

namespace Offload

open Extension

namespace Table

/-- all widths are sizes -/
def Sized (t : Table) : Prop := ∀ p ∈ t.specs, p.width < Size.limit

theorem sized_scalarOnly : scalarOnly.Sized := by
  intro p hp
  cases hp

theorem widest_mem (t : Table) (e : Element) : t.widest e ∈ t.styles e :=
  List.mem_of_getLast? (t.widest_eq e)

theorem narrowest_mem (t : Table) (e : Element) : t.narrowest e ∈ t.styles e := by
  unfold narrowest
  cases h : (t.vectorStyles e).head? with
  | none => exact List.mem_cons_self
  | some s => exact List.mem_cons_of_mem _ (List.mem_of_head? h)

end Table

namespace Style

theorem ext_of {r s : Style} (he : r.element = s.element) (ht : r.tag = s.tag) (hw : r.width = s.width) :
    r = s := by
  obtain ⟨e, tag, width, hpos, hdvd⟩ := r
  obtain ⟨e', tag', width', hpos', hdvd'⟩ := s
  cases he
  cases ht
  cases hw
  rfl

theorem isScalar_of_logic {s : Style} (h : s.tag = logicTag) : s.isScalar = false := by
  unfold isScalar
  rw [h]
  decide

/-- the ways to come by a style -/
inductive Obtainable : Style → Prop
  | scalar (e : Element) : Obtainable (.scalar e)
  | accelerator {e : Element} {width : Nat} {s : Style} :
    width < Size.limit → Style.accelerator e width = .ok s → Obtainable s
  | resolved {t : Table} {e : Element} {lanes : Nat} {s : Style} :
    t.Sized → t.resolve e lanes = .ok s → Obtainable s
  | resolvedWidth {t : Table} {e : Element} {width : Nat} {s : Style} :
    t.Sized → t.resolveWidth e width = .ok s → Obtainable s
  | widest {t : Table} (e : Element) : t.Sized → Obtainable (t.widest e)
  | narrowest {t : Table} (e : Element) : t.Sized → Obtainable (t.narrowest e)
  | listed {t : Table} {e : Element} {s : Style} : t.Sized → s ∈ t.styles e → Obtainable s

namespace Obtainable

variable {s : Style}

/-- What is not for the accelerator stands in some table. -/
theorem cases (h : s.Obtainable) :
    (s.tag = logicTag ∧ s.width < Size.limit) ∨ ∃ (t : Table) (e : Element), t.Sized ∧ s ∈ t.styles e := by
  cases h with
  | scalar e => exact .inr ⟨.scalarOnly, e, Table.sized_scalarOnly, List.mem_cons_self⟩
  | accelerator hw hs =>
    obtain ⟨-, htag, rfl⟩ := ofWidth_eq_ok_iff.mp hs
    exact .inl ⟨htag, hw⟩
  | resolved ht hs => exact .inr ⟨_, _, ht, ((Table.resolve_eq_ok_iff ht).mp hs).1⟩
  | resolvedWidth ht hs => exact .inr ⟨_, _, ht, (Table.resolveWidth_eq_ok_iff.mp hs).1⟩
  | widest e ht => exact .inr ⟨_, e, ht, Table.widest_mem ..⟩
  | narrowest e ht => exact .inr ⟨_, e, ht, Table.narrowest_mem ..⟩
  | listed ht hs => exact .inr ⟨_, _, ht, hs⟩

theorem width_lt (h : s.Obtainable) : s.width < Size.limit := by
  rcases h.cases with ⟨-, hw⟩ | ⟨t, e, ht, hs⟩
  · exact hw
  · exact Table.width_lt_of_mem ht hs

/-- The scalar tag stands for one lane. -/
theorem eq_scalar (h : s.Obtainable) (hs : s.isScalar = true) : s = .scalar s.element := by
  rcases h.cases with ⟨hlogic, -⟩ | ⟨t, e, -, hmem⟩
  · exact absurd hs (Bool.eq_false_iff.mp (isScalar_of_logic hlogic))
  · have htag : s.tag = scalarTag := beq_iff_eq.mp hs
    rcases List.mem_cons.mp hmem with rfl | hv
    · rfl
    · obtain ⟨-, p, hp, -, hname⟩ := Table.mem_vectorStyles_iff_claims.mp hv
      exact absurd (hname.symm.trans htag) (t.wellFormed p hp).unreserved

end Obtainable

end Style

end Offload
