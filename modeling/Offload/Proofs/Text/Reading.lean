import Mathlib.Data.List.Induction
import Mathlib.Data.Nat.Digits.Defs
import Offload.Text.Ascii
import Offload.Text.Blank
import Offload.Text.Numeral
import Offload.Text.Pieces

/-!
# What is read from a text

Words, sizes and lists as they stand in a text, told without the functions that read them.

* `Blank.trim_trim`       what was trimmed has no more blanks at its ends;
* `IsWord`                the text is one of some words, up to blanks around it and the case of ASCII letters;
* `Numeral.IsSize`        an optional plus sign and one or more decimal digits, of a value that is a size;
* `IsList`                what stands between commas, without blanks around it and without what is blank;
* `Numeral.readChars_eq_ok_iff`, `isList_iff`
                          that sizes and lists are read so, and nothing else is;
* `isList_join`           a list that was read is read again from its parts with commas between them.
-/

namespace Offload.Text

/-! ## blanks -/

namespace Blank

theorem text_iff {s : String} : text s = true ↔ ∀ c ∈ s.toList, char c = true := List.all_eq_true

/-- What is cut off at the end is blank. -/
theorem trimEnd_append (cs : List Char) : trimEnd cs ++ (cs.reverse.takeWhile char).reverse = cs := by
  unfold trimEnd
  rw [← List.reverse_append, List.takeWhile_append_dropWhile, List.reverse_reverse]

theorem mem_of_mem_trim {cs : List Char} {c : Char} (h : c ∈ trim cs) : c ∈ cs := by
  have hstart : c ∈ trimStart cs := by
    rw [← trimEnd_append (trimStart cs)]
    exact List.mem_append_left _ h
  exact (List.dropWhile_suffix char).subset hstart

theorem not_char_of_head?_dropWhile {cs : List Char} {c : Char} (h : (cs.dropWhile char).head? = some c) :
    char c = false := by
  have hnot := List.head?_dropWhile_not char cs
  rw [h] at hnot
  exact hnot

theorem not_char_of_head?_trim {cs : List Char} {c : Char} (h : (trim cs).head? = some c) :
    char c = false := by
  have hstart : (cs.dropWhile char).head? = some c := by
    show (trimStart cs).head? = some c
    rw [← trimEnd_append (trimStart cs), List.head?_append]
    show ((trim cs).head?).or _ = some c
    rw [h]
    rfl
  exact not_char_of_head?_dropWhile hstart

theorem not_char_of_getLast?_trim {cs : List Char} {c : Char} (h : (trim cs).getLast? = some c) :
    char c = false := by
  have hend : ((trimStart cs).reverse.dropWhile char).head? = some c := by
    rw [← List.getLast?_reverse]
    exact h
  exact not_char_of_head?_dropWhile hend

theorem trim_trim (cs : List Char) : trim (trim cs) = trim cs :=
  trim_of_solid (fun _ h => not_char_of_head?_trim h) fun _ h => not_char_of_getLast?_trim h

end Blank

/-! ## words -/

/-- One of some words, whatever blanks stand around it and whatever the case of its ASCII letters is. -/
def IsWord (words : List String) (s : String) : Prop :=
  ∃ w ∈ words, Ascii.same (Blank.trimmed s) w = true

/-- Small words can be compared with the text made small. -/
theorem isWord_iff {words : List String} (hw : ∀ w ∈ words, Ascii.lower w = w) {s : String} :
    IsWord words s ↔ Ascii.lower (Blank.trimmed s) ∈ words := by
  have hsame {w : String} (h : Ascii.lower w = w) :
      Ascii.same (Blank.trimmed s) w = true ↔ Ascii.lower (Blank.trimmed s) = w := by
    unfold Ascii.same
    rw [beq_iff_eq]
    constructor
    · intro he
      rw [← h]
      exact congrArg String.ofList he
    · intro he
      have hl : Ascii.lowerChars (Blank.trimmed s).toList = w.toList := by
        rw [← he]
        exact String.toList_ofList.symm
      have hwl : Ascii.lowerChars w.toList = w.toList := by
        conv_rhs => rw [← h]
        exact String.toList_ofList.symm
      rw [hl, hwl]
  constructor
  · rintro ⟨w, hmem, hs⟩
    rw [(hsame (hw w hmem)).mp hs]
    exact hmem
  · intro hmem
    exact ⟨_, hmem, (hsame (hw _ hmem)).mpr rfl⟩

/-! ## sizes -/

namespace Numeral

/-- the value of decimal digits, the first being the most significant -/
def value (ds : List Char) : Nat := Nat.ofDigits 10 (ds.reverse.map fun c => c.toNat - '0'.toNat)

/-- An optional plus sign and one or more decimal digits, of a value below 2 ^ 64. -/
def IsSize (cs : List Char) (n : Nat) : Prop :=
  ∃ sign ds, cs = sign ++ ds ∧ (sign = [] ∨ sign = ['+']) ∧ ds ≠ [] ∧
    (∀ c ∈ ds, '0' ≤ c ∧ c ≤ '9') ∧ value ds = n ∧ n < 2 ^ 64

/-- one more digit behind a value -/
def push (n : Nat) (c : Char) : Nat := 10 * n + (c.toNat - '0'.toNat)

theorem value_eq_foldl (ds : List Char) : value ds = ds.foldl push 0 := by
  induction ds using List.reverseRecOn with
  | nil => rfl
  | append_singleton ds c ih =>
    rw [List.foldl_append, ← ih]
    show Nat.ofDigits 10 _ = push (value ds) c
    rw [List.reverse_append, List.reverse_singleton, List.singleton_append, List.map_cons,
      Nat.ofDigits_cons, Nat.add_comm]
    rfl

theorem le_foldl_push (n : Nat) (ds : List Char) : n ≤ ds.foldl push n := by
  induction ds generalizing n with
  | nil => exact Nat.le_refl n
  | cons c ds ih =>
    refine Nat.le_trans ?_ (ih (push n c))
    unfold push
    omega

/-- Digits are read onto a value if all of them are digits and their value is still a size. -/
theorem readOnto_eq_ok_iff {m n : Nat} (hm : m < Size.limit) {ds : List Char} :
    readOnto m ds = .ok n ↔
      (∀ c ∈ ds, '0' ≤ c ∧ c ≤ '9') ∧ ds.foldl push m = n ∧ n < Size.limit := by
  induction ds generalizing m with
  | nil =>
    rw [readOnto, Except.ok.injEq]
    constructor
    · rintro rfl
      exact ⟨List.forall_mem_nil _, rfl, hm⟩
    · exact fun h => h.2.1
  | cons c ds ih =>
    rw [readOnto, List.forall_mem_cons, List.foldl_cons]
    unfold digit?
    by_cases hc : '0' ≤ c ∧ c ≤ '9'
    · rw [if_pos hc]
      dsimp only
      by_cases hlt : 10 * m + (c.toNat - '0'.toNat) < Size.limit
      · rw [if_pos hlt, ih hlt]
        exact ⟨fun h => ⟨⟨hc, h.1⟩, h.2⟩, fun h => ⟨h.1.2, h.2⟩⟩
      · rw [if_neg hlt]
        constructor
        · intro h
          cases h
        · rintro ⟨-, hn, hlimit⟩
          -- what follows only makes it larger
          have hle := le_foldl_push (push m c) ds
          rw [hn] at hle
          exact absurd (Nat.lt_of_le_of_lt hle hlimit) hlt
    · rw [if_neg hc]
      constructor
      · intro h
        cases h
      · intro h
        exact absurd h.1.1 hc

theorem readChars_plus {ds : List Char} (h : ds ≠ []) : readChars ('+' :: ds) = readOnto 0 ds := by
  cases ds with
  | nil => exact absurd rfl h
  | cons c ds => rfl

theorem readChars_cons_of_ne {c : Char} (h : c ≠ '+') (ds : List Char) :
    readChars (c :: ds) = readOnto 0 (c :: ds) := by
  unfold readChars
  split
  · rename_i he
    cases he
  · rename_i he
    cases he
    exact absurd rfl h
  · rename_i he
    cases he
    exact absurd rfl h
  · rfl

/-- A size is read exactly from what is one. -/
theorem readChars_eq_ok_iff {cs : List Char} {n : Nat} : readChars cs = .ok n ↔ IsSize cs n := by
  have hzero : 0 < Size.limit := by decide
  have hlimit : Size.limit = 2 ^ 64 := rfl
  constructor
  · intro h
    cases cs with
    | nil => cases h
    | cons c ds =>
      by_cases hc : c = '+'
      · subst hc
        by_cases hd : ds = []
        · subst hd
          cases h
        · rw [readChars_plus hd, readOnto_eq_ok_iff hzero, ← value_eq_foldl] at h
          exact ⟨['+'], ds, rfl, .inr rfl, hd, h⟩
      · rw [readChars_cons_of_ne hc, readOnto_eq_ok_iff hzero, ← value_eq_foldl] at h
        exact ⟨[], c :: ds, rfl, .inl rfl, List.cons_ne_nil c ds, h⟩
  · rintro ⟨sign, ds, rfl, hsign, hd, hdigits, hvalue, hn⟩
    have hread : readOnto 0 ds = .ok n :=
      (readOnto_eq_ok_iff hzero).mpr ⟨hdigits, (value_eq_foldl ds).symm.trans hvalue, hn⟩
    rcases hsign with rfl | rfl
    · cases ds with
      | nil => exact absurd rfl hd
      | cons c ds =>
        have hc : c ≠ '+' := by
          rintro rfl
          exact absurd (hdigits '+' List.mem_cons_self).1 (by decide)
        rw [List.nil_append, readChars_cons_of_ne hc]
        exact hread
    · rw [List.singleton_append, readChars_plus hd]
      exact hread

end Numeral

/-! ## lists -/

namespace Pieces

variable {mark c : Char} {ps : List (List Char)}

theorem intercalate_eq_join (mark : Char) (ps : List (List Char)) : [mark].intercalate ps = join mark ps := by
  induction ps with
  | nil => rfl
  | cons p ps ih =>
    cases ps with
    | nil => exact List.intercalate_singleton
    | cons q ps =>
      rw [List.intercalate_cons_cons, ih, join, List.append_assoc]
      rfl

theorem mem_join (h : c ∈ join mark ps) : c = mark ∨ ∃ p ∈ ps, c ∈ p := by
  induction ps with
  | nil => cases h
  | cons p ps ih =>
    cases ps with
    | nil => exact .inr ⟨p, List.mem_singleton_self p, h⟩
    | cons q ps =>
      rw [join, List.mem_append, List.mem_cons] at h
      rcases h with h | h | h
      · exact .inr ⟨p, List.mem_cons_self, h⟩
      · exact .inl h
      · refine (ih h).imp_right ?_
        rintro ⟨r, hr, hc⟩
        exact ⟨r, List.mem_cons_of_mem p hr, hc⟩

theorem mem_join_of_mem {p : List Char} (hp : p ∈ ps) (hc : c ∈ p) : c ∈ join mark ps := by
  induction ps with
  | nil => cases hp
  | cons q ps ih =>
    cases ps with
    | nil =>
      rw [List.mem_singleton] at hp
      exact hp ▸ hc
    | cons r ps =>
      rw [join, List.mem_append, List.mem_cons]
      rcases List.mem_cons.mp hp with rfl | hp
      · exact .inl hc
      · exact .inr (.inr (ih hp))

theorem not_mem_of_mem_cut {p cs : List Char} (h : p ∈ cut mark cs) : mark ∉ p := by
  induction cs generalizing p with
  | nil =>
    rw [cut, List.mem_singleton] at h
    subst h
    exact List.not_mem_nil
  | cons d cs ih =>
    rw [cut] at h
    split at h
    · rcases List.mem_cons.mp h with rfl | h
      · exact List.not_mem_nil
      · exact ih h
    · rename_i hd
      cases hcut : cut mark cs with
      | nil => exact absurd hcut (cut_ne_nil mark cs)
      | cons q qs =>
        rw [hcut] at h ih
        rcases List.mem_cons.mp h with rfl | h
        · rw [List.mem_cons, not_or]
          exact ⟨Ne.symm hd, ih List.mem_cons_self⟩
        · exact ih (List.mem_cons_of_mem q h)

end Pieces

theorem toList_intercalate_comma (l : List String) :
    (",".intercalate l).toList = Pieces.join ',' (l.map String.toList) := by
  rw [String.toList_intercalate, ← Pieces.intercalate_eq_join]
  rfl

/-- what stands between commas, without blanks around it and without what is blank -/
def IsList (s : String) (l : List String) : Prop :=
  ∃ pieces : List (List Char), [','].intercalate pieces = s.toList ∧ pieces ≠ [] ∧
    (∀ p ∈ pieces, ',' ∉ p) ∧ l = ((pieces.map Blank.trim).filter (!·.isEmpty)).map String.ofList

/-- There is one way to cut a text. -/
theorem isList_iff {s : String} {l : List String} : IsList s l ↔
    l = (((Pieces.cut ',' s.toList).map Blank.trim).filter (!·.isEmpty)).map String.ofList := by
  constructor
  · rintro ⟨pieces, hjoin, hne, hcomma, rfl⟩
    rw [← hjoin, Pieces.intercalate_eq_join, Pieces.cut_join hne hcomma]
  · intro h
    refine ⟨Pieces.cut ',' s.toList, ?_, Pieces.cut_ne_nil _ _, fun p => Pieces.not_mem_of_mem_cut, h⟩
    rw [Pieces.intercalate_eq_join, Pieces.join_cut]

section
variable {s : String} {l : List String}

/-- What is in a list is solid: no commas, no blanks at its ends, and not nothing. -/
theorem IsList.mem (h : IsList s l) {t : String} (ht : t ∈ l) :
    ',' ∉ t.toList ∧ Blank.trim t.toList = t.toList ∧ t.toList ≠ [] := by
  obtain ⟨pieces, -, -, hcomma, rfl⟩ := h
  obtain ⟨q, hq, rfl⟩ := List.mem_map.mp ht
  obtain ⟨hq, hempty⟩ := List.mem_filter.mp hq
  obtain ⟨p, hp, rfl⟩ := List.mem_map.mp hq
  rw [String.toList_ofList]
  refine ⟨fun hc => hcomma p hp (Blank.mem_of_mem_trim hc), Blank.trim_trim p, fun hnil => ?_⟩
  rw [hnil] at hempty
  cases hempty

/-- With commas between them, the parts of a list are that list again. -/
theorem IsList.join (h : IsList s l) (hl : l ≠ []) : IsList (",".intercalate l) l := by
  refine ⟨l.map String.toList, ?_, ?_, fun p hp => ?_, ?_⟩
  · rw [toList_intercalate_comma, Pieces.intercalate_eq_join]
  · exact fun hnil => hl (List.map_eq_nil_iff.mp hnil)
  · obtain ⟨t, ht, rfl⟩ := List.mem_map.mp hp
    exact (h.mem ht).1
  · have htrim : (l.map String.toList).map Blank.trim = l.map String.toList := by
      rw [List.map_map]
      exact List.map_congr_left fun t ht => (h.mem ht).2.1
    have hfilter : (l.map String.toList).filter (!·.isEmpty) = l.map String.toList := by
      refine List.filter_eq_self.mpr fun p hp => ?_
      obtain ⟨t, ht, rfl⟩ := List.mem_map.mp hp
      rw [Bool.not_eq_true', ← Bool.not_eq_true, List.isEmpty_iff]
      exact (h.mem ht).2.2
    rw [htrim, hfilter, List.map_map]
    exact (List.map_id'' (fun t => String.ofList_toList) l).symm

/-- Such a text is not blank. -/
theorem IsList.not_blank (h : IsList s l) (hl : l ≠ []) : Blank.text (",".intercalate l) = false := by
  obtain ⟨t, ht⟩ := List.exists_mem_of_ne_nil l hl
  obtain ⟨-, htrim, hne⟩ := h.mem ht
  refine Bool.eq_false_iff.mpr fun hblank => hne ?_
  rw [← htrim, Blank.trim_eq_nil, List.all_eq_true]
  intro c hc
  refine Blank.text_iff.mp hblank c ?_
  rw [toList_intercalate_comma]
  exact Pieces.mem_join_of_mem (List.mem_map_of_mem ht) hc

/-- Nothing but commas and blanks is a list of nothing. -/
theorem isList_nil_iff : IsList s [] ↔ ∀ c ∈ s.toList, c = ',' ∨ Blank.char c = true := by
  have hblank (p : List Char) : (!(Blank.trim p).isEmpty) = false ↔ ∀ c ∈ p, Blank.char c = true := by
    rw [Bool.not_eq_false', List.isEmpty_iff, Blank.trim_eq_nil, List.all_eq_true]
  have hjoin : Pieces.join ',' (Pieces.cut ',' s.toList) = s.toList := Pieces.join_cut ',' s.toList
  rw [isList_iff, eq_comm, List.map_eq_nil_iff, List.filter_eq_nil_iff, List.forall_mem_map]
  constructor
  · intro h c hc
    rw [← hjoin] at hc
    refine (Pieces.mem_join hc).imp_right fun ⟨p, hp, hcp⟩ => ?_
    exact (hblank p).mp (Bool.not_eq_true _ ▸ h p hp) c hcp
  · intro h p hp
    rw [Bool.not_eq_true, hblank]
    intro c hc
    refine (h c (hjoin ▸ Pieces.mem_join_of_mem hp hc)).resolve_left ?_
    rintro rfl
    exact Pieces.not_mem_of_mem_cut hp hc

end

end Offload.Text
