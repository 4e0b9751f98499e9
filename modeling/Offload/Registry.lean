/-!
# Registries

A registry holds things under numbers, in ascending order of the numbers.

* `find?`, `insert`, `erase`  what is held under a number, and how to change it; each is pinned down
                              by what is found afterwards (`find?_insert`, `find?_erase`);
* `ext_find?`                 two registries that find the same are the same;
* `total`                     a sum over all that is held (`total_insert_new`, `total_erase`,
                              `total_insert_same`, `total_add`).
-/

namespace Offload

structure Registry (α : Type) where
  entries : List (Nat × α)
  ascending : entries.Pairwise fun a b => a.1 < b.1

namespace Registry

variable {α : Type}

def empty : Registry α := ⟨[], List.Pairwise.nil⟩

def find? (r : Registry α) (k : Nat) : Option α := r.entries.lookup k

def contains (r : Registry α) (k : Nat) : Bool := (r.find? k).isSome

def size (r : Registry α) : Nat := r.entries.length

/-! ## entries in ascending order -/

/-- puts an entry in its place, over one with the same number if there is one -/
def put (k : Nat) (a : α) : List (Nat × α) → List (Nat × α)
  | [] => [(k, a)]
  | e :: es => if k < e.1 then (k, a) :: e :: es else if k = e.1 then (k, a) :: es else e :: put k a es

theorem mem_put {k : Nat} {a : α} {es : List (Nat × α)} {e : Nat × α} (h : e ∈ put k a es) :
    e = (k, a) ∨ e ∈ es := by
  induction es with
  | nil => simpa [put] using h
  | cons d es ih =>
    rw [put] at h
    split at h
    · exact List.mem_cons.mp h
    · split at h
      · rcases List.mem_cons.mp h with h | h
        · exact .inl h
        · exact .inr (List.mem_cons_of_mem d h)
      · rcases List.mem_cons.mp h with h | h
        · exact .inr (h ▸ List.mem_cons_self)
        · exact (ih h).imp_right (List.mem_cons_of_mem d)

theorem ascending_put {k : Nat} {a : α} {es : List (Nat × α)}
    (h : es.Pairwise fun a b => a.1 < b.1) : (put k a es).Pairwise fun a b => a.1 < b.1 := by
  induction es with
  | nil => simp [put]
  | cons d es ih =>
    have ⟨hd, hes⟩ := List.pairwise_cons.mp h
    rw [put]
    split
    · rename_i hk
      refine List.pairwise_cons.mpr ⟨?_, h⟩
      intro e he
      rcases List.mem_cons.mp he with he | he
      · exact he ▸ hk
      · exact Nat.lt_trans hk (hd e he)
    · split
      · rename_i hk
        exact List.pairwise_cons.mpr ⟨fun e he => hk ▸ hd e he, hes⟩
      · refine List.pairwise_cons.mpr ⟨?_, ih hes⟩
        intro e he
        rcases mem_put he with he | he
        · subst he
          show d.1 < k
          omega
        · exact hd e he

theorem lookup_cons_eq (d : Nat × α) (es : List (Nat × α)) (j : Nat) :
    (d :: es).lookup j = if j = d.1 then some d.2 else es.lookup j := by
  rw [List.lookup_cons]
  split
  · rename_i h
    rw [if_pos (by simpa using h)]
  · rename_i h
    rw [if_neg (by simpa using h)]

theorem lookup_put (k : Nat) (a : α) (es : List (Nat × α)) (j : Nat) :
    (put k a es).lookup j = if j = k then some a else es.lookup j := by
  induction es with
  | nil => rw [put, lookup_cons_eq]
  | cons d es ih =>
    rw [put]
    split
    · rw [lookup_cons_eq]
    · split
      · rename_i hk
        rw [lookup_cons_eq, lookup_cons_eq, ← hk]
        split <;> rfl
      · rename_i hk
        rw [lookup_cons_eq, lookup_cons_eq, ih]
        by_cases hj : j = k
        · rw [if_pos hj, if_pos hj, if_neg (hj ▸ hk)]
        · rw [if_neg hj, if_neg hj]

theorem lookup_eq_none_of_lt {k : Nat} {es : List (Nat × α)} (h : ∀ e ∈ es, k < e.1) :
    es.lookup k = none := by
  induction es with
  | nil => rfl
  | cons d es ih =>
    rw [lookup_cons_eq, if_neg (Nat.ne_of_lt (h d List.mem_cons_self))]
    exact ih fun e he => h e (List.mem_cons_of_mem d he)

theorem lookup_filter_ne (k : Nat) (es : List (Nat × α)) (j : Nat) :
    (es.filter (·.1 ≠ k)).lookup j = if j = k then none else es.lookup j := by
  induction es with
  | nil => simp
  | cons d es ih =>
    obtain ⟨i, b⟩ := d
    by_cases hi : i = k
    · subst hi
      rw [List.filter_cons_of_neg (by simp), ih]
      by_cases hj : j = i
      · simp [hj]
      · rw [lookup_cons_eq, if_neg hj, if_neg hj, if_neg hj]
    · rw [List.filter_cons_of_pos (by simpa using hi)]
      by_cases hji : j = i
      · subst hji
        simp [hi]
      · rw [lookup_cons_eq, lookup_cons_eq, if_neg hji, if_neg hji, ih]

theorem lookup_of_mem {es : List (Nat × α)} (h : es.Pairwise fun a b => a.1 < b.1)
    {e : Nat × α} (he : e ∈ es) : es.lookup e.1 = some e.2 := by
  induction es with
  | nil => cases he
  | cons d es ih =>
    have ⟨hd, hes⟩ := List.pairwise_cons.mp h
    rcases List.mem_cons.mp he with rfl | he
    · rw [lookup_cons_eq, if_pos rfl]
    · rw [lookup_cons_eq, if_neg (Nat.ne_of_gt (hd e he))]
      exact ih hes he

theorem mem_of_lookup {es : List (Nat × α)} {k : Nat} {a : α} (h : es.lookup k = some a) :
    (k, a) ∈ es := by
  induction es with
  | nil => cases h
  | cons d es ih =>
    rw [lookup_cons_eq] at h
    split at h
    · rename_i hk
      cases h
      subst hk
      exact List.mem_cons_self
    · exact List.mem_cons_of_mem d (ih h)

theorem entries_ext {es fs : List (Nat × α)} (he : es.Pairwise fun a b => a.1 < b.1)
    (hf : fs.Pairwise fun a b => a.1 < b.1) (h : ∀ k, es.lookup k = fs.lookup k) : es = fs := by
  induction es generalizing fs with
  | nil =>
    cases fs with
    | nil => rfl
    | cons d fs =>
      have := h d.1
      rw [lookup_of_mem hf List.mem_cons_self] at this
      cases this
  | cons d es ih =>
    cases fs with
    | nil =>
      have := h d.1
      rw [lookup_of_mem he List.mem_cons_self] at this
      cases this
    | cons c fs =>
      have ⟨hd, hes⟩ := List.pairwise_cons.mp he
      have ⟨hc, hfs⟩ := List.pairwise_cons.mp hf
      have h1 : (d.1, d.2) ∈ c :: fs :=
        mem_of_lookup ((h d.1).symm.trans (lookup_of_mem he List.mem_cons_self))
      have h2 : (c.1, c.2) ∈ d :: es :=
        mem_of_lookup ((h c.1).trans (lookup_of_mem hf List.mem_cons_self))
      have hdc : d = c := by
        rcases List.mem_cons.mp h1 with h1 | h1
        · exact h1
        · rcases List.mem_cons.mp h2 with h2 | h2
          · exact h2.symm
          · have := hc _ h1
            have := hd _ h2
            omega
      subst hdc
      refine congrArg (d :: ·) (ih hes hfs fun k => ?_)
      by_cases hk : k = d.1
      · subst hk
        rw [lookup_eq_none_of_lt hd, lookup_eq_none_of_lt hc]
      · have := h k
        rw [lookup_cons_eq, lookup_cons_eq, if_neg hk, if_neg hk] at this
        exact this

/-! ## registries -/

def insert (r : Registry α) (k : Nat) (a : α) : Registry α :=
  ⟨put k a r.entries, ascending_put r.ascending⟩

def erase (r : Registry α) (k : Nat) : Registry α :=
  ⟨r.entries.filter (·.1 ≠ k), r.ascending.filter _⟩

theorem find?_insert (r : Registry α) (k : Nat) (a : α) (j : Nat) :
    (r.insert k a).find? j = if j = k then some a else r.find? j := lookup_put ..

theorem find?_erase (r : Registry α) (k j : Nat) :
    (r.erase k).find? j = if j = k then none else r.find? j := lookup_filter_ne ..

theorem ext_find? {r s : Registry α} (h : ∀ k, r.find? k = s.find? k) : r = s := by
  obtain ⟨es, he⟩ := r
  obtain ⟨fs, hf⟩ := s
  cases entries_ext he hf h
  rfl

theorem insert_find? {r : Registry α} {k : Nat} {a : α} (h : r.find? k = some a) :
    r.insert k a = r := by
  apply ext_find?
  intro j
  rw [find?_insert]
  split
  · rename_i hj
    rw [hj, h]
  · rfl

theorem insert_erase (r : Registry α) (k : Nat) (a : α) : (r.erase k).insert k a = r.insert k a := by
  apply ext_find?
  intro j
  rw [find?_insert, find?_insert, find?_erase]
  split <;> rfl

theorem insert_comm (r : Registry α) {j k : Nat} (a b : α) (h : j ≠ k) :
    (r.insert j a).insert k b = (r.insert k b).insert j a := by
  apply ext_find?
  intro i
  rw [find?_insert, find?_insert, find?_insert, find?_insert]
  by_cases hk : i = k
  · rw [if_pos hk, if_pos hk, if_neg (hk ▸ Ne.symm h)]
  · rw [if_neg hk, if_neg hk]

/-! ## sums -/

/-- the sum of a number for everything held -/
def sum (f : α → Nat) : List (Nat × α) → Nat
  | [] => 0
  | e :: es => f e.2 + sum f es

def total (r : Registry α) (f : α → Nat) : Nat := sum f r.entries

theorem size_eq_total (r : Registry α) : r.size = r.total fun _ => 1 := by
  rw [size, total]
  induction r.entries with
  | nil => rfl
  | cons e es ih => rw [sum, List.length_cons, ih, Nat.add_comm]

theorem total_add (r : Registry α) (f g : α → Nat) :
    r.total f + r.total g = r.total fun a => f a + g a := by
  simp only [total]
  induction r.entries with
  | nil => rfl
  | cons e es ih =>
    simp only [sum]
    omega

private theorem sum_put (f : α → Nat) (k : Nat) (a : α) {es : List (Nat × α)}
    (h : es.Pairwise fun a b => a.1 < b.1) :
    sum f (put k a es) + (es.lookup k).elim 0 f = sum f es + f a := by
  induction es with
  | nil => simp [put, sum]
  | cons d es ih =>
    have ⟨hd, hes⟩ := List.pairwise_cons.mp h
    rw [put]
    split
    · rename_i hk
      have hn : (d :: es).lookup k = none := by
        apply lookup_eq_none_of_lt
        intro e he
        rcases List.mem_cons.mp he with he | he
        · exact he ▸ hk
        · exact Nat.lt_trans hk (hd e he)
      rw [hn]
      simp [sum, Nat.add_comm]
    · split
      · rename_i hk
        subst hk
        rw [lookup_cons_eq, if_pos rfl]
        simp only [sum, Option.elim]
        omega
      · rename_i hk
        have := ih hes
        rw [lookup_cons_eq, if_neg hk]
        simp only [sum]
        omega

private theorem sum_filter_ne (f : α → Nat) (k : Nat) {es : List (Nat × α)}
    (h : es.Pairwise fun a b => a.1 < b.1) :
    sum f (es.filter (·.1 ≠ k)) + (es.lookup k).elim 0 f = sum f es := by
  induction es with
  | nil => rfl
  | cons d es ih =>
    have ⟨hd, hes⟩ := List.pairwise_cons.mp h
    have hi := ih hes
    by_cases hk : d.1 = k
    · subst hk
      rw [List.filter_cons_of_neg (by simp)]
      rw [lookup_eq_none_of_lt hd] at hi
      rw [lookup_cons_eq, if_pos rfl]
      simp only [sum, Option.elim] at hi ⊢
      omega
    · rw [List.filter_cons_of_pos (by simpa using hk)]
      rw [lookup_cons_eq, if_neg (Ne.symm hk)]
      simp only [sum]
      omega

/-- what is put in adds to the sum, and what it replaces is taken off -/
theorem total_insert (r : Registry α) (k : Nat) (a : α) (f : α → Nat) :
    (r.insert k a).total f + (r.find? k).elim 0 f = r.total f + f a := sum_put f k a r.ascending

/-- what is taken out is taken off the sum -/
theorem total_erase (r : Registry α) (k : Nat) (f : α → Nat) :
    (r.erase k).total f + (r.find? k).elim 0 f = r.total f := sum_filter_ne f k r.ascending

theorem total_insert_new {r : Registry α} {k : Nat} (h : r.find? k = none) (a : α) (f : α → Nat) :
    (r.insert k a).total f = r.total f + f a := by
  simpa [h] using r.total_insert k a f

theorem total_insert_same {r : Registry α} {k : Nat} {a b : α} {f : α → Nat}
    (h : r.find? k = some b) (hf : f a = f b) : (r.insert k a).total f = r.total f := by
  have := r.total_insert k a f
  rw [h, Option.elim_some, hf] at this
  exact Nat.add_right_cancel this

end Registry

end Offload
