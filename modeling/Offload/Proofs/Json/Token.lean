import Mathlib.Data.List.Chain
import Offload.Proofs.Json.Spelling

/-!
# The tokens of a text

* `Token.Spells`   a text holds just these tokens, in any spelling and with any white space between them;
* `Token.Parted`   every number ends where the next token starts.  Then the scan of the text gives the
                   tokens (`scan_of_spells`), and so for tokens that are written (`scan_writeAll`);
* `Token.Sized`    a natural in a token is a size; every scan gives such tokens (`sized_scan`).
-/

namespace Offload.Json

namespace Number

/-! ## numbers that are read -/

theorem takeWhole_lt {n : Nat} (h : n < Size.limit) (ds : List Nat) : (takeWhole n ds).1 < Size.limit := by
  induction ds generalizing n with
  | nil => exact h
  | cons d ds ih =>
    rw [takeWhole]
    split
    · rename_i hd
      exact ih hd
    · exact h

theorem ofInteger_eq_natural {neg : Bool} {m n : Nat} (h : ofInteger neg m = natural n) : m = n := by
  unfold ofInteger at h
  split at h
  · exact natural.inj h
  · split at h <;> cases h

theorem Parts.value?_natural {p : Parts} {n : Nat} (h : p.value? = some (natural n)) : n < Size.limit := by
  unfold Parts.value? at h
  split at h
  · rename_i m hm _ _
    obtain rfl := ofInteger_eq_natural (Option.some.inj h)
    have hlt := takeWhole_lt (n := 0) (by decide) p.whole
    rwa [hm] at hlt
  · obtain ⟨x, -, hx⟩ := Option.map_eq_some_iff.mp h
    cases hx

theorem read?_natural {cs rest : List Char} {n : Nat} (h : read? cs = some (natural n, rest)) :
    n < Size.limit := by
  unfold read? at h
  simp only [Option.bind_eq_bind, Option.bind_eq_some_iff, Option.some.injEq, Prod.mk.injEq] at h
  obtain ⟨⟨p, _⟩, -, m, hm, rfl, -⟩ := h
  exact Parts.value?_natural hm

end Number

namespace Token

/-! ## the tokens that a text holds -/

/-- The text holds just these tokens, with white space anywhere between them. -/
inductive Spells : List Char → List Token → Prop where
  | nil : Spells [] []
  | space {c cs ts} : isSpace c = true → Spells cs ts → Spells (c :: cs) ts
  | token {w t cs ts} : Spelling w t → Spells cs ts → Spells (w ++ cs) (t :: ts)

/-- a token that a number ends before -/
def Plain : Token → Prop
  | number _ | bad => False
  | _ => True

/-- No number stands in front of another token that could go on with it. -/
def Parted (ts : List Token) : Prop := ts.IsChain fun t u => (∃ n, t = number n) → u.Plain

theorem Plain.ne_number {t : Token} (h : t.Plain) : ¬ ∃ n, t = number n := by
  rintro ⟨n, rfl⟩
  exact h

theorem Parted.plain {t : Token} {ts : List Token} (ht : t.Plain) (h : Parted ts) : Parted (t :: ts) :=
  List.IsChain.cons h fun _ _ hn => absurd hn ht.ne_number

theorem Plain.ends_spelling {w : List Char} {t : Token} (h : Spelling w t) (ht : t.Plain) (cs : List Char) :
    Number.Ends (w ++ cs) := by
  cases h with
  | mark =>
    cases t with
    | boolean b => cases b <;> exact fun c hc => by cases hc; decide
    | number n => exact ht.elim
    | bad => exact ht.elim
    | text s => exact fun c hc => by cases hc; decide
    | _ => exact fun c hc => by cases hc; decide
  | number => exact ht.elim
  | text => exact fun c hc => by cases hc; decide

theorem ends_space {c : Char} (h : isSpace c = true) (cs : List Char) : Number.Ends (c :: cs) := by
  intro d hd
  cases hd
  simp only [isSpace, Bool.or_eq_true, decide_eq_true_eq] at h
  rcases h with ((rfl | rfl) | rfl) | rfl <;> decide

theorem ends_of_spells {t : Token} {cs : List Char} {ts : List Token} (h : Spells cs ts)
    (hp : Parted (t :: ts)) : t.Ends cs := by
  intro hn
  cases h with
  | nil => exact nofun
  | space hc => exact ends_space hc _
  | token hw =>
    have hplain := (List.isChain_cons_cons.mp hp).1 hn
    exact hplain.ends_spelling hw _

theorem scanWithin_of_spells {cs : List Char} {ts : List Token} (h : Spells cs ts) (hp : Parted ts) {fuel : Nat}
    (hf : cs.length ≤ fuel) : scanWithin fuel cs = ts := by
  induction h generalizing fuel with
  | nil => cases fuel <;> rfl
  | space hc _ ih =>
    cases fuel with
    | zero => cases hf
    | succ fuel => rw [scanWithin, if_pos hc, ih hp (Nat.le_of_succ_le_succ hf)]
  | @token w t cs ts hw hcs ih =>
    have hnext := next?_spelling hw (ends_of_spells hcs hp)
    obtain ⟨c, w, rfl, hc⟩ := exists_spelling_eq_cons hw
    rw [List.cons_append] at hf hnext ⊢
    cases fuel with
    | zero => cases hf
    | succ fuel =>
      have hlen : cs.length ≤ fuel := by
        rw [List.length_cons, List.length_append] at hf
        omega
      rw [scanWithin, if_neg (Bool.eq_false_iff.mp hc), hnext]
      exact congrArg (t :: ·) (ih (List.IsChain.tail hp) hlen)

/-- A text is read as the tokens that it holds. -/
theorem scan_of_spells {cs : List Char} {ts : List Token} (h : Spells cs ts) (hp : Parted ts) : scan cs = ts :=
  scanWithin_of_spells h hp (Nat.le_refl _)

theorem spells_write {ts : List Token} (h : ∀ t ∈ ts, t.Legible) : Spells (ts.flatMap write) ts := by
  induction ts with
  | nil => exact .nil
  | cons t ts ih =>
    obtain ⟨ht, hts⟩ := List.forall_mem_cons.mp h
    exact .token (spelling_write ht) (ih hts)

/-- What is written holds what was to be written. -/
theorem spells_writeAll {ts : List Token} (h : ∀ t ∈ ts, t.Legible) : Spells (writeAll ts).toList ts := by
  rw [writeAll, String.toList_ofList]
  exact spells_write h

/-! ## scanned tokens -/

/-- A natural is a size. -/
def Sized : Token → Prop
  | number (.natural n) => n < Size.limit
  | _ => True

theorem sized_next? {cs rest : List Char} {t : Token} (h : next? cs = some (t, rest)) : t.Sized := by
  unfold next? at h
  split at h
  case h_11 =>
    -- a number
    obtain ⟨⟨n, _⟩, hn, heq⟩ := Option.map_eq_some_iff.mp h
    cases heq
    cases n with
    | natural n => exact Number.read?_natural hn
    | negative n => trivial
    | real x => trivial
  case h_10 =>
    -- a string
    obtain ⟨_, -, heq⟩ := Option.map_eq_some_iff.mp h
    cases heq
    trivial
  all_goals
    cases h
    trivial

theorem sized_scanWithin (fuel : Nat) (cs : List Char) : ∀ t ∈ scanWithin fuel cs, t.Sized := by
  induction fuel generalizing cs with
  | zero =>
    cases cs with
    | nil => exact nofun
    | cons c cs => exact List.forall_mem_singleton.mpr trivial
  | succ fuel ih =>
    cases cs with
    | nil => exact nofun
    | cons c cs =>
      rw [scanWithin]
      split
      · exact ih cs
      · split
        · rename_i t rest ht
          exact List.forall_mem_cons.mpr ⟨sized_next? ht, ih rest⟩
        · exact List.forall_mem_singleton.mpr trivial

/-- The naturals in a text are sizes. -/
theorem sized_scan (cs : List Char) : ∀ t ∈ scan cs, t.Sized := sized_scanWithin cs.length cs

end Token

end Offload.Json
