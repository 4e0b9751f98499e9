import Mathlib.Data.List.Forall2
import Offload.Json.Reader
import Offload.Proofs.Json.Value

/-!
# What readers take off tokens

* `Reader.Exact`    which values a reader takes, and as what.  It takes nothing but their own tokens, so that a
                    list is read just where its items are (`Exact.list`);
* `Reader.Gives`    from tokens whose naturals are sizes a reader takes values with some property,
                    and leaves such tokens.  Lists and optional values inherit it.
-/

namespace Offload.Json

namespace Reader

variable {α : Type} {item : Reader α} {expected : String} {ts : List Token} {a : α}

/-! ## the values that are taken -/

/-- A value is taken as what the form says, and nothing of what follows it. -/
def Exact (item : Reader α) (form : Value → α → Prop) : Prop :=
  ∀ v rest a rest', item (v.tokens ++ rest) = .ok (a, rest') ↔ form v a ∧ rest' = rest

theorem exact_text (expected : String) : Exact (text expected) fun v s => v = .text s := by
  intro v rest s rest'
  match v with
  | .text t =>
    simp only [Value.tokens, List.singleton_append, text, Except.ok.injEq, Prod.mk.injEq, Value.text.injEq,
      eq_comm]
  | .null | .boolean _ | .number _ => exact ⟨nofun, nofun⟩
  | .array [] | .array (_ :: _) | .object [] | .object (_ :: _) => exact ⟨nofun, nofun⟩

theorem exact_size (expected : String) : Exact (size expected) fun v n => v = .number (.natural n) := by
  intro v rest n rest'
  match v with
  | .number (.natural m) =>
    simp only [Value.tokens, List.singleton_append, size, Except.ok.injEq, Prod.mk.injEq, Value.number.injEq,
      Number.natural.injEq, eq_comm]
  | .number (.negative _) | .number (.real _) => exact ⟨nofun, nofun⟩
  | .null | .boolean _ | .text _ => exact ⟨nofun, nofun⟩
  | .array [] | .array (_ :: _) | .object [] | .object (_ :: _) => exact ⟨nofun, nofun⟩

theorem exact_null (expected : String) : Exact (null expected) fun v _ => v = .null := by
  intro v rest u rest'
  match v with
  | .null =>
    simp only [Value.tokens, List.singleton_append, null, Except.ok.injEq, Prod.mk.injEq, true_and, eq_comm]
  | .boolean _ | .number _ | .text _ => exact ⟨nofun, nofun⟩
  | .array [] | .array (_ :: _) | .object [] | .object (_ :: _) => exact ⟨nofun, nofun⟩

section
variable {form : Value → α → Prop} (hitem : Exact item form)
include hitem

theorem Exact.of_ok {v : Value} {rest rest' : List Token} (h : item (v.tokens ++ rest) = .ok (a, rest')) :
    form v a ∧ rest' = rest := (hitem v rest a rest').mp h

theorem Exact.ok {v : Value} (h : form v a) (rest : List Token) : item (v.tokens ++ rest) = .ok (a, rest) :=
  (hitem v rest a rest).mpr ⟨h, rfl⟩

/-- A value is taken as one thing only. -/
theorem Exact.unique {v : Value} {b : α} (ha : form v a) (hb : form v b) : a = b := by
  have h := hitem.ok ha []
  rw [hitem.ok hb] at h
  cases h
  rfl

theorem Exact.congr {form' : Value → α → Prop} (h : ∀ v a, form v a ↔ form' v a) : Exact item form' := by
  intro v rest a rest'
  rw [hitem, h]

theorem Exact.whole (v : Value) (a : α) : whole item v.tokens = .ok a ↔ form v a := by
  have hv := hitem v []
  rw [List.append_nil] at hv
  unfold Reader.whole
  constructor
  · intro h
    split at h
    · rename_i hb
      cases h
      exact ((hv ..).mp hb).1
    · cases h
    · cases h
  · intro h
    rw [(hv a []).mpr ⟨h, rfl⟩]

/-- `null` is never taken for a value that is there. -/
theorem Exact.optional : Exact (optional item) fun v o =>
    (v = .null ∧ o = none) ∨ ∃ a, v ≠ .null ∧ o = some a ∧ form v a := by
  intro v rest o rest'
  by_cases hnull : v = .null
  · subst hnull
    show Except.ok (none, rest) = .ok (o, rest') ↔ _
    simp only [Except.ok.injEq, Prod.mk.injEq, true_and, ne_eq, not_true_eq_false, false_and, exists_false,
      or_false, eq_comm]
  · have hread : Reader.optional item (v.tokens ++ rest) =
        (item (v.tokens ++ rest)).map fun r => (some r.1, r.2) := by
      unfold Reader.optional
      split
      · rename_i heq
        match v with
        | .null => exact absurd rfl hnull
        | .boolean _ | .number _ | .text _ => cases heq
        | .array [] | .array (_ :: _) | .object [] | .object (_ :: _) => cases heq
      · cases item (v.tokens ++ rest) <;> rfl
    rw [hread]
    constructor
    · intro h
      cases hr : item (v.tokens ++ rest) with
      | error e =>
        rw [hr] at h
        cases h
      | ok r =>
        rw [hr] at h
        cases h
        obtain ⟨ha, hrest⟩ := hitem.of_ok hr
        exact ⟨.inr ⟨_, hnull, rfl, ha⟩, hrest⟩
    · rintro ⟨⟨h, -⟩ | ⟨a, -, rfl, ha⟩, rfl⟩
      · exact absurd h hnull
      · rw [hitem.ok ha]
        rfl

theorem Exact.items (v : Value) (vs : List Value) {fuel : Nat} (hf : vs.length < fuel) (rest : List Token)
    (as : List α) (rest' : List Token) :
    items item fuel (v.tokens ++ (Value.itemTokens vs ++ rest)) = .ok (as, rest') ↔
      List.Forall₂ form (v :: vs) as ∧ rest' = rest := by
  induction vs generalizing v fuel as with
  | nil =>
    obtain ⟨fuel, rfl⟩ := Nat.exists_eq_succ_of_ne_zero (Nat.pos_iff_ne_zero.mp hf)
    constructor
    · intro h
      rw [Reader.items] at h
      split at h
      · cases h
      · rename_i hr
        cases h
        obtain ⟨ha, hrest⟩ := hitem.of_ok hr
        cases hrest
        exact ⟨.cons ha .nil, rfl⟩
      · rename_i hr
        cases (hitem.of_ok hr).2
      · cases h
    · rintro ⟨h, rfl⟩
      obtain ⟨a, _, ha, hnil, rfl⟩ := List.forall₂_cons_left_iff.mp h
      obtain rfl := List.forall₂_nil_left_iff.mp hnil
      rw [Reader.items, hitem.ok ha]
      rfl
  | cons w vs ih =>
    obtain ⟨fuel, rfl⟩ := Nat.exists_eq_succ_of_ne_zero (Nat.pos_iff_ne_zero.mp (Nat.zero_lt_of_lt hf))
    have hrest := ih w (Nat.lt_of_succ_lt_succ hf)
    have htokens : Value.itemTokens (w :: vs) ++ rest = .comma :: (w.tokens ++ (Value.itemTokens vs ++ rest)) := by
      rw [Value.itemTokens, List.cons_append, List.cons_append, List.append_assoc]
    rw [htokens]
    constructor
    · intro h
      rw [Reader.items] at h
      split at h
      · cases h
      · rename_i hr
        cases (hitem.of_ok hr).2
      · rename_i hr
        obtain ⟨ha, heq⟩ := hitem.of_ok hr
        cases heq
        split at h
        · cases h
        · rename_i hr
          cases h
          obtain ⟨has, hrest⟩ := (hrest _).mp hr
          exact ⟨.cons ha has, hrest⟩
      · cases h
    · rintro ⟨h, rfl⟩
      obtain ⟨a, as, ha, has, rfl⟩ := List.forall₂_cons_left_iff.mp h
      rw [Reader.items, hitem.ok ha]
      dsimp only
      rw [(hrest as).mpr ⟨has, rfl⟩]

omit hitem in
/-- A list with items does not end where it starts. -/
theorem list_of_starts {t : Token} (ht : Value.Starts t) (ts : List Token) :
    list expected item (.openBracket :: t :: ts) = items item (t :: ts).length (t :: ts) := by
  unfold Reader.list
  split
  · rename_i heq
    cases heq
    exact ht.elim
  · rename_i heq
    cases heq
    rfl
  · rename_i hne
    exact absurd rfl (hne _)

/-- A list is read just where its items are. -/
theorem Exact.list : Exact (list expected item) fun v as =>
    ∃ vs, v = .array vs ∧ List.Forall₂ form vs as := by
  intro v rest as rest'
  match v with
  | .null | .boolean _ | .number _ | .text _ | .object [] | .object (_ :: _) => exact ⟨nofun, nofun⟩
  | .array [] =>
    show Except.ok ([], rest) = .ok (as, rest') ↔ _
    simp only [Except.ok.injEq, Prod.mk.injEq, Value.array.injEq, exists_eq_left', List.forall₂_nil_left_iff,
      eq_comm (a := as), eq_comm (a := rest')]
  | .array (w :: vs) =>
    obtain ⟨t, ts, hhead, ht⟩ := w.exists_tokens_eq_cons
    have htokens : (Value.array (w :: vs)).tokens ++ rest =
        .openBracket :: (w.tokens ++ (Value.itemTokens vs ++ rest)) := by
      rw [Value.tokens, List.append_assoc]
      rfl
    have hlength : vs.length < (w.tokens ++ (Value.itemTokens vs ++ rest)).length := by
      have hvs := Value.length_lt_itemTokens vs
      simp only [List.length_append]
      omega
    rw [hhead, List.cons_append] at hlength htokens
    rw [htokens, list_of_starts ht, ← List.cons_append, ← hhead, hitem.items w vs (by rwa [hhead])]
    simp only [Value.array.injEq, exists_eq_left']

end

/-! ## the values of a reader -/

/-- From tokens whose naturals are sizes the reader takes values with the property, and leaves such
tokens. -/
def Gives (item : Reader α) (p : α → Prop) : Prop :=
  ∀ ⦃ts a rest⦄, (∀ t ∈ ts, t.Sized) → item ts = .ok (a, rest) → p a ∧ ∀ t ∈ rest, t.Sized

theorem gives_text (expected : String) : Gives (text expected) fun _ => True := by
  intro ts s rest hts h
  unfold text at h
  split at h
  · cases h
    exact ⟨trivial, (List.forall_mem_cons.mp hts).2⟩
  · cases h

theorem gives_size (expected : String) : Gives (size expected) (· < Size.limit) := by
  intro ts n rest hts h
  unfold size at h
  split at h
  · cases h
    exact List.forall_mem_cons.mp hts
  · cases h
  · cases h

theorem gives_null (expected : String) : Gives (null expected) fun _ => True := by
  intro ts u rest hts h
  unfold null at h
  split at h
  · cases h
    exact ⟨trivial, (List.forall_mem_cons.mp hts).2⟩
  · cases h

section
variable {p : α → Prop}

theorem Gives.optional (hitem : Gives item p) : Gives (optional item) fun o => ∀ a ∈ o, p a := by
  intro ts o rest hts h
  unfold Reader.optional at h
  split at h
  · cases h
    exact ⟨nofun, (List.forall_mem_cons.mp hts).2⟩
  · split at h
    · rename_i a rest' ha
      cases h
      obtain ⟨hp, hrest⟩ := hitem hts ha
      exact ⟨fun _ h => Option.some.inj h ▸ hp, hrest⟩
    · cases h

theorem Gives.items (hitem : Gives item p) (fuel : Nat) :
    Gives (items item fuel) fun as => ∀ a ∈ as, p a := by
  intro ts as rest hts h
  fun_induction Reader.items item fuel ts generalizing as rest with
  | case3 _ _ a _ ha =>
    -- the last item
    obtain ⟨hp, hrest⟩ := hitem hts ha
    cases h
    exact ⟨List.forall_mem_singleton.mpr hp, (List.forall_mem_cons.mp hrest).2⟩
  | case5 _ _ a _ ha _ _ has ih =>
    -- an item with others behind it
    obtain ⟨hp, hrest⟩ := hitem hts ha
    obtain ⟨hps, hrest⟩ := ih (List.forall_mem_cons.mp hrest).2 has
    cases h
    exact ⟨List.forall_mem_cons.mpr ⟨hp, hps⟩, hrest⟩
  | _ => cases h

theorem Gives.list (hitem : Gives item p) : Gives (list expected item) fun as => ∀ a ∈ as, p a := by
  intro ts as rest hts h
  unfold Reader.list at h
  split at h
  · cases h
    exact ⟨nofun, (List.forall_mem_cons.mp (List.forall_mem_cons.mp hts).2).2⟩
  · exact hitem.items _ (List.forall_mem_cons.mp hts).2 h
  · cases h

theorem Gives.whole (hitem : Gives item p) (hts : ∀ t ∈ ts, t.Sized) (h : whole item ts = .ok a) :
    p a := by
  unfold Reader.whole at h
  split at h
  · rename_i ha
    cases h
    exact (hitem hts ha).1
  · cases h
  · cases h

end

end Reader

end Offload.Json
