import Offload.Json.Token

/-!
# How tokens are spelled

A token can be spelled in more than one way.

* `Number.Numeral`     the numerals of JSON, part by part, and what is read off them (`read?_numeral`).  The
                       digits of a natural are one of them (`numeral_digits`);
* `Token.Glyph`, `Token.Literal`  the characters of a string, each as itself, by a letter behind a backslash, by
                       its number, or by the two halves of a pair (`string?_literal`);
* `Token.Spelling`     a token in any of its spellings, which reads back (`next?_spelling`).  What is written is
                       one of them (`spelling_write`).
-/

namespace Offload.Json

open Text.Numeral

namespace Number

/-! ## digits -/

/-- what the digits stand for -/
def figures (ds : List Nat) : List Char := ds.map ofDigit

/-- decimal digits, at least one -/
def Digits (ds : List Nat) : Prop := ds ≠ [] ∧ ∀ d ∈ ds, d < 10

/-- no digit goes on there -/
def NoDigit (cs : List Char) : Prop := ∀ c ∈ cs.head?, digit? c = none

/-- No numeral goes on there. -/
def Ends (cs : List Char) : Prop :=
  ∀ c ∈ cs.head?, digit? c = none ∧ c ≠ '.' ∧ c ≠ 'e' ∧ c ≠ 'E'

section
variable {ds : List Nat} {rest : List Char}

theorem digits?_of_noDigit (h : NoDigit rest) : digits? rest = ([], rest) := by
  cases rest with
  | nil => rfl
  | cons c cs => rw [digits?, h c rfl]

theorem digits?_figures (hds : ∀ d ∈ ds, d < 10) (h : NoDigit rest) :
    digits? (figures ds ++ rest) = (ds, rest) := by
  induction ds with
  | nil => exact digits?_of_noDigit h
  | cons d ds ih =>
    obtain ⟨hd, htail⟩ := List.forall_mem_cons.mp hds
    show digits? (ofDigit d :: (figures ds ++ rest)) = _
    rw [digits?, digit?_ofDigit hd, ih htail]

/-- The first digit is no sign. -/
theorem exists_figures_eq_cons (h : Digits ds) (rest : List Char) :
    ∃ c cs, figures ds ++ rest = c :: cs ∧ c ≠ '-' ∧ c ≠ '+' := by
  have hsigns : ∀ d : Fin 10, ofDigit d ≠ '-' ∧ ofDigit d ≠ '+' := by decide
  cases ds with
  | nil => exact absurd rfl h.1
  | cons d ds => exact ⟨_, _, rfl, hsigns ⟨d, h.2 d List.mem_cons_self⟩⟩

end

/-! ## numerals -/

/-- a minus or nothing -/
inductive Minus : List Char → Bool → Prop
  | minus : Minus ['-'] true
  | none : Minus [] false

/-- digits behind a point, or nothing -/
inductive Fraction : List Char → Option (List Nat) → Prop
  | digits {ds : List Nat} : Digits ds → Fraction ('.' :: figures ds) (some ds)
  | none : Fraction [] none

/-- the sign of an exponent, which need not be there -/
inductive Sign : List Char → Bool → Prop
  | minus : Sign ['-'] true
  | plus : Sign ['+'] false
  | none : Sign [] false

/-- a power of ten, or nothing -/
inductive Exponent : List Char → Option (Bool × List Nat) → Prop
  | power {e : Char} {s : List Char} {neg : Bool} {ds : List Nat} :
      e = 'e' ∨ e = 'E' → Sign s neg → Digits ds → Exponent (e :: (s ++ figures ds)) (some (neg, ds))
  | none : Exponent [] none

/-- the numerals of JSON.  No zero stands in front of another digit. -/
inductive Numeral : List Char → Parts → Prop
  | parts {m f x : List Char} {neg : Bool} {ds : List Nat} {fs : Option (List Nat)}
      {es : Option (Bool × List Nat)} : Minus m neg → Digits ds → (ds.head? = some 0 → ds = [0]) →
      Fraction f fs → Exponent x es → Numeral (m ++ (figures ds ++ (f ++ x))) ⟨neg, ds, fs, es⟩

section
variable {rest : List Char}

theorem exponent?_spelled {x : List Char} {es : Option (Bool × List Nat)} (h : Exponent x es)
    (hr : Ends rest) : exponent? (x ++ rest) = some (es, rest) := by
  cases h with
  | none =>
    cases rest with
    | nil => rfl
    | cons c cs =>
      obtain ⟨-, -, he, hE⟩ := hr c rfl
      exact if_neg fun hc => hc.elim he hE
  | @power e s neg ds he hs hds =>
    obtain ⟨d, tail, hhead, hdash, hplus⟩ := exists_figures_eq_cons hds rest
    have hsign : sign (s ++ (figures ds ++ rest)) = (neg, figures ds ++ rest) := by
      cases hs with
      | minus => rfl
      | plus => rfl
      | none =>
        rw [List.nil_append, hhead]
        unfold sign
        split
        · exact absurd (List.cons.inj ‹_›).1 hdash
        · exact absurd (List.cons.inj ‹_›).1 hplus
        · rfl
    have hdigits : digits? (figures ds ++ rest) = (ds, rest) :=
      digits?_figures hds.2 fun c hc => (hr c hc).1
    rw [List.cons_append, List.append_assoc, exponent?, if_pos he, hsign]
    dsimp only
    rw [hdigits]
    cases ds with
    | nil => exact absurd rfl hds.1
    | cons d ds => rfl

/-- Behind the fraction. -/
theorem ends_exponent {x : List Char} {es : Option (Bool × List Nat)} (h : Exponent x es) (hr : Ends rest) :
    ∀ c ∈ (x ++ rest).head?, digit? c = none ∧ c ≠ '.' := by
  intro c hc
  cases h with
  | none => exact ⟨(hr c hc).1, (hr c hc).2.1⟩
  | power he =>
    cases hc
    rcases he with rfl | rfl <;> decide

theorem fraction?_spelled {f tail : List Char} {fs : Option (List Nat)} (h : Fraction f fs)
    (ht : ∀ c ∈ tail.head?, digit? c = none ∧ c ≠ '.') : fraction? (f ++ tail) = some (fs, tail) := by
  cases h with
  | none =>
    rw [List.nil_append]
    unfold fraction?
    split
    · exact absurd rfl (ht '.' rfl).2
    · rfl
  | @digits ds hds =>
    have hdigits : digits? (figures ds ++ tail) = (ds, tail) :=
      digits?_figures hds.2 fun c hc => (ht c hc).1
    rw [List.cons_append, fraction?, hdigits]
    cases ds with
    | nil => exact absurd rfl hds.1
    | cons d ds => rfl

/-- Behind the whole part. -/
theorem noDigit_fraction {f tail : List Char} {fs : Option (List Nat)} (h : Fraction f fs)
    (ht : ∀ c ∈ tail.head?, digit? c = none ∧ c ≠ '.') : NoDigit (f ++ tail) := by
  intro c hc
  cases h with
  | none => exact (ht c hc).1
  | digits =>
    cases hc
    decide

theorem whole?_figures {ds : List Nat} {tail : List Char} (hds : Digits ds)
    (hzero : ds.head? = some 0 → ds = [0]) (ht : NoDigit tail) :
    whole? (figures ds ++ tail) = some (ds, tail) := by
  unfold whole?
  rw [digits?_figures hds.2 ht]
  split
  · rename_i heq
    cases heq
    exact absurd rfl hds.1
  · rename_i heq
    cases heq
    cases hzero rfl
  · rename_i heq
    cases heq
    rfl

theorem minus_spelled {m tail : List Char} {neg : Bool} (h : Minus m neg)
    (ht : ∃ c cs, tail = c :: cs ∧ c ≠ '-') : minus (m ++ tail) = (neg, tail) := by
  cases h with
  | minus => rfl
  | none =>
    obtain ⟨c, cs, rfl, hc⟩ := ht
    rw [List.nil_append]
    unfold minus
    split
    · exact absurd (List.cons.inj ‹_›).1 hc
    · rfl

/-- A numeral is read as its parts. -/
theorem read?_numeral {w : List Char} {p : Parts} {n : Number} (h : Numeral w p) (hn : p.value? = some n)
    (hr : Ends rest) : read? (w ++ rest) = some (n, rest) := by
  cases h with
  | @parts m f x neg ds fs es hm hds hzero hf hx =>
    have hexponent := ends_exponent hx hr
    obtain ⟨c, cs, hhead, hdash, -⟩ := exists_figures_eq_cons hds (f ++ (x ++ rest))
    have hparts : parts? (m ++ (figures ds ++ (f ++ (x ++ rest)))) = some (⟨neg, ds, fs, es⟩, rest) := by
      unfold parts?
      rw [minus_spelled hm ⟨c, cs, hhead, hdash⟩]
      simp only [whole?_figures hds hzero (noDigit_fraction hf hexponent), fraction?_spelled hf hexponent,
        exponent?_spelled hx hr, Option.bind_eq_bind, Option.bind_some]
    unfold read?
    simp only [List.append_assoc, hparts, Option.bind_eq_bind, Option.bind_some, hn]

end

/-- A numeral starts with a minus or a digit. -/
theorem exists_numeral_eq_cons {w : List Char} {p : Parts} (h : Numeral w p) :
    ∃ c cs, w = c :: cs ∧ (c = '-' ∨ ∃ d < 10, c = ofDigit d) := by
  cases h with
  | @parts m f x neg ds fs es hm hds =>
    cases hm with
    | minus => exact ⟨_, _, rfl, .inl rfl⟩
    | none =>
      cases ds with
      | nil => exact absurd rfl hds.1
      | cons d ds => exact ⟨_, _, rfl, .inr ⟨d, hds.2 d List.mem_cons_self, rfl⟩⟩

/-! ## the digits of a natural -/

/-- the values of the digits of a natural -/
def places (n : Nat) : List Nat := (digits n).filterMap digit?

theorem places_of_lt {n : Nat} (h : n < 10) : places n = [n] := by
  rw [places, digits_of_lt h, List.filterMap_cons, digit?_ofDigit h, List.filterMap_nil]

theorem places_of_le {n : Nat} (h : 10 ≤ n) : places n = places (n / 10) ++ [n % 10] := by
  have hd : n % 10 < 10 := Nat.mod_lt _ (by decide)
  rw [places, digits_of_le h, List.filterMap_append, List.filterMap_cons, digit?_ofDigit hd]
  rfl

theorem digits_eq_figures (n : Nat) : digits n = figures (places n) := by
  induction n using Nat.strongRecOn with
  | ind n ih =>
    by_cases hn : n < 10
    · rw [places_of_lt hn, digits_of_lt hn]
      rfl
    · have hle := Nat.le_of_not_lt hn
      rw [places_of_le hle, digits_of_le hle, ih _ (by omega), figures, figures, List.map_append]
      rfl

theorem digits_places (n : Nat) : Digits (places n) := by
  constructor
  · intro h
    have hnil := digits_eq_figures n
    rw [h] at hnil
    exact digits_ne_nil n hnil
  · intro d hd
    obtain ⟨c, hc, hcd⟩ := List.mem_filterMap.mp hd
    obtain ⟨e, he, rfl⟩ := digit?_of_mem_digits n c hc
    rw [digit?_ofDigit he] at hcd
    exact Option.some.inj hcd ▸ he

/-- No zero stands in front. -/
theorem head?_places {n : Nat} (h : 0 < n) : ∃ d, 0 < d ∧ (places n).head? = some d := by
  induction n using Nat.strongRecOn with
  | ind n ih =>
    by_cases hn : n < 10
    · exact ⟨n, h, by rw [places_of_lt hn]; rfl⟩
    · obtain ⟨d, hd, hp⟩ := ih (n / 10) (by omega) (by omega)
      exact ⟨d, hd, by rw [places_of_le (Nat.le_of_not_lt hn), List.head?_append, hp]; rfl⟩

theorem takeWhole_places {n : Nat} (h : n < Size.limit) (ds : List Nat) :
    takeWhole 0 (places n ++ ds) = takeWhole n ds := by
  induction n using Nat.strongRecOn generalizing ds with
  | ind n ih =>
    by_cases hn : n < 10
    · rw [places_of_lt hn, List.singleton_append, takeWhole, Nat.mul_zero, Nat.zero_add, if_pos h]
    · have hv : 10 * (n / 10) + n % 10 = n := Nat.div_add_mod n 10
      rw [places_of_le (Nat.le_of_not_lt hn), List.append_assoc, ih _ (by omega) (by omega),
        List.singleton_append, takeWhole, hv, if_pos h]

/-- The digits of a natural are a numeral. -/
theorem numeral_digits (n : Nat) : Numeral (digits n) ⟨false, places n, none, none⟩ := by
  have hzero : (places n).head? = some 0 → places n = [0] := by
    intro h
    cases n with
    | zero => rw [places_of_lt (by decide)]
    | succ n =>
      obtain ⟨d, hd, hhead⟩ := head?_places (Nat.succ_pos n)
      rw [h] at hhead
      cases hhead
      exact absurd hd (Nat.lt_irrefl 0)
  have h := Numeral.parts .none (digits_places n) hzero .none .none
  rwa [List.nil_append, List.append_nil, List.append_nil, ← digits_eq_figures] at h

/-- A size is its own value. -/
theorem value?_places {n : Nat} (h : n < Size.limit) :
    Parts.value? ⟨false, places n, none, none⟩ = some (natural n) := by
  have hwhole : takeWhole 0 (places n) = (n, 0) := by
    rw [← List.append_nil (places n), takeWhole_places h]
    rfl
  simp only [Parts.value?, hwhole]
  rfl

end Number

namespace Token

/-! ## strings -/

/-- one character of a string -/
inductive Glyph : List Char → Char → Prop
  | plain {c : Char} : c ≠ '"' → c ≠ '\\' → 0x20 ≤ c.toNat → Glyph [c] c
  /-- by a letter of its own -/
  | letter {e c : Char} : escaped? e = some c → Glyph ['\\', e] c
  /-- by its number -/
  | number {s t u v c : Char} : Text.Hex.readOnto 0 [s, t, u, v] = some c.toNat →
      Glyph ['\\', 'u', s, t, u, v] c
  /-- by the numbers of its two halves -/
  | pair {s t u v s' t' u' v' c : Char} {i j : Nat} : i < 0x400 → j < 0x400 →
      c.toNat = 0x10000 + i * 0x400 + j →
      Text.Hex.readOnto 0 [s, t, u, v] = some (0xD800 + i) →
      Text.Hex.readOnto 0 [s', t', u', v'] = some (0xDC00 + j) →
      Glyph ['\\', 'u', s, t, u, v, '\\', 'u', s', t', u', v'] c

/-- the characters of a string, one after the other -/
inductive Literal : List Char → List Char → Prop
  | nil : Literal [] []
  | cons {w ws cs : List Char} {c : Char} : Glyph w c → Literal ws cs → Literal (w ++ ws) (c :: cs)

theorem isLeading_eq_false {u : Nat} (h : u < 0xD800 ∨ 0xDC00 ≤ u) : isLeading u = false := by
  unfold isLeading
  rw [Bool.and_eq_false_iff, decide_eq_false_iff_not, decide_eq_false_iff_not]
  omega

theorem isTrailing_eq_false {u : Nat} (h : u < 0xDC00 ∨ 0xE000 ≤ u) : isTrailing u = false := by
  unfold isTrailing
  rw [Bool.and_eq_false_iff, decide_eq_false_iff_not, decide_eq_false_iff_not]
  omega

/-- One character is read. -/
theorem string?_glyph {w : List Char} {c : Char} (h : Glyph w c) (cs : List Char) :
    string? (w ++ cs) = (string? cs).map fun r => (c :: r.1, r.2) := by
  cases h with
  | plain hquote hback hprint =>
    rw [List.singleton_append, string?]
    · rw [if_neg (Nat.not_lt.mpr hprint)]
    · exact hquote
    · exact fun _ _ _ _ _ h _ => hback h
    · exact fun _ _ h _ => hback h
  | letter he =>
    unfold escaped? at he
    split at he <;> first | cases he; rfl | cases he
  | number hread =>
    -- the number of a character is no half of a pair
    have hvalid : c.toNat < 0xD800 ∨ 0xDFFF < c.toNat ∧ c.toNat < 0x110000 := c.valid
    simp only [List.cons_append, List.nil_append]
    rw [string?, hread]
    simp only [isLeading_eq_false (u := c.toNat) (by omega), isTrailing_eq_false (u := c.toNat) (by omega),
      Char.ofNat_toNat]
    rfl
  | @pair _ _ _ _ _ _ _ _ _ i j hi hj hc hlead htrail =>
    have hleading : isLeading (0xD800 + i) = true := by
      unfold isLeading
      rw [Bool.and_eq_true, decide_eq_true_iff, decide_eq_true_iff]
      omega
    have htrailing : isTrailing (0xDC00 + j) = true := by
      unfold isTrailing
      rw [Bool.and_eq_true, decide_eq_true_iff, decide_eq_true_iff]
      omega
    have hjoined : joined (0xD800 + i) (0xDC00 + j) = c := by
      rw [joined, Nat.add_sub_cancel_left, Nat.add_sub_cancel_left, ← hc, Char.ofNat_toNat]
    simp only [List.cons_append, List.nil_append]
    rw [string?, hlead]
    simp only [hleading, if_true, htrail, htrailing, hjoined]

/-- A string is read up to its closing quote. -/
theorem string?_literal {w cs : List Char} (h : Literal w cs) (rest : List Char) :
    string? (w ++ '"' :: rest) = some (cs, rest) := by
  induction h with
  | nil => rfl
  | cons hc _ ih =>
    rw [List.append_assoc, string?_glyph hc, ih]
    rfl

private theorem hex_control : ∀ u : Fin 0x20,
    Text.Hex.readOnto 0 ['0', '0', Text.Hex.ofDigit (u / 16), Text.Hex.ofDigit (u % 16)] =
      some u.val := by decide

theorem glyph_writeChar (c : Char) : Glyph (writeChar c) c := by
  unfold writeChar
  -- the characters with a letter of their own
  iterate 7
    split
    · rename_i h
      subst h
      exact .letter rfl
  split
  · rename_i h
    exact .number (hex_control ⟨c.toNat, h⟩)
  · rename_i hquote hback _ _ _ _ _ hprint
    exact .plain hquote hback (Nat.le_of_not_lt hprint)

theorem literal_write (cs : List Char) : Literal (cs.flatMap writeChar) cs := by
  induction cs with
  | nil => exact .nil
  | cons c cs ih => exact .cons (glyph_writeChar c) ih

/-! ## tokens -/

/-- a token with one spelling -/
def Mark : Token → Prop
  | number _ | text _ | bad => False
  | _ => True

/-- a token in any of its spellings -/
inductive Spelling : List Char → Token → Prop
  | mark {t : Token} : t.Mark → Spelling t.write t
  | number {w : List Char} {p : Number.Parts} {n : Number} :
      Number.Numeral w p → p.value? = some n → Spelling w (number n)
  | text {w cs : List Char} : Literal w cs → Spelling ('"' :: (w ++ ['"'])) (text (String.ofList cs))

/-- a token whose text stands for it again; of the numbers only sizes are meant -/
def Legible : Token → Prop
  | number (.natural n) => n < Size.limit
  | number _ | bad => False
  | _ => True

instance (t : Token) : Decidable t.Legible :=
  match t with
  | number (.natural n) => inferInstanceAs (Decidable (n < Size.limit))
  | number (.negative _) | number (.real _) | bad => isFalse id
  | openBrace | closeBrace | openBracket | closeBracket | colon | comma | null | boolean _ | text _ =>
    isTrue trivial

/-- What is written is a spelling. -/
theorem spelling_write {t : Token} (h : t.Legible) : Spelling t.write t := by
  cases t with
  | text s =>
    have hs := Spelling.text (literal_write s.toList)
    rwa [String.ofList_toList] at hs
  | number n =>
    cases n with
    | natural n => exact .number (Number.numeral_digits n) (Number.value?_places h)
    | negative n => exact h.elim
    | real x => exact h.elim
  | bad => exact h.elim
  | _ => exact .mark trivial

/-- Behind a number, the rest of the text must not go on with it. -/
def Ends (t : Token) (cs : List Char) : Prop := (∃ n, t = number n) → Number.Ends cs

theorem next?_numeral {c : Char} (hc : c = '-' ∨ ∃ d < 10, c = ofDigit d) (cs : List Char) :
    next? (c :: cs) = (Number.read? (c :: cs)).map fun r => (number r.1, r.2) := by
  rcases hc with rfl | ⟨d, hd, rfl⟩
  · rfl
  · match d, hd with
    | 0, _ | 1, _ | 2, _ | 3, _ | 4, _ | 5, _ | 6, _ | 7, _ | 8, _ | 9, _ => rfl

/-- Every token reads back, however it is spelled. -/
theorem next?_spelling {w : List Char} {t : Token} (h : Spelling w t) {cs : List Char} (hcs : t.Ends cs) :
    next? (w ++ cs) = some (t, cs) := by
  cases h with
  | mark ht =>
    cases t with
    | boolean b => cases b <;> rfl
    | number n => exact ht.elim
    | text s => exact ht.elim
    | bad => exact ht.elim
    | _ => rfl
  | number hw hn =>
    have hread := Number.read?_numeral hw hn (hcs ⟨_, rfl⟩)
    obtain ⟨c, w, rfl, hc⟩ := Number.exists_numeral_eq_cons hw
    rw [List.cons_append] at hread ⊢
    rw [next?_numeral hc, hread]
    rfl
  | text hw =>
    rw [List.cons_append, List.append_assoc, List.singleton_append, next?, string?_literal hw]
    rfl

/-- No spelling starts with white space. -/
theorem exists_spelling_eq_cons {w : List Char} {t : Token} (h : Spelling w t) :
    ∃ c cs, w = c :: cs ∧ isSpace c = false := by
  cases h with
  | mark ht =>
    cases t with
    | boolean b => cases b <;> exact ⟨_, _, rfl, rfl⟩
    | number n => exact ht.elim
    | text s => exact ht.elim
    | bad => exact ht.elim
    | _ => exact ⟨_, _, rfl, rfl⟩
  | number hw =>
    have hspace : ∀ d : Fin 10, isSpace (ofDigit d) = false := by decide
    obtain ⟨c, w, rfl, rfl | ⟨d, hd, rfl⟩⟩ := Number.exists_numeral_eq_cons hw
    · exact ⟨_, _, rfl, rfl⟩
    · exact ⟨_, _, rfl, hspace ⟨d, hd⟩⟩
  | text => exact ⟨_, _, rfl, rfl⟩

end Token

end Offload.Json
