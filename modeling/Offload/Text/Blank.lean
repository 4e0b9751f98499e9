/-!
# White space

Blank characters are those with the Unicode property White_Space: 25 characters in ten ranges, the
same in every version of the standard since 6.3.

* `Blank.char`  whether a character is blank;
* `Blank.text`  whether a text holds nothing but blanks; the empty text does;
* `Blank.trim`  a text without the blanks at its ends (`trim_eq_nil`, `trim_of_solid`).
-/

namespace Offload.Text.Blank

/-- closed ranges, ascending and apart -/
def ranges : List (Nat × Nat) :=
  [(0x09, 0x0D), (0x20, 0x20), (0x85, 0x85), (0xA0, 0xA0), (0x1680, 0x1680), (0x2000, 0x200A),
   (0x2028, 0x2029), (0x202F, 0x202F), (0x205F, 0x205F), (0x3000, 0x3000)]

def char (c : Char) : Bool := ranges.any fun r => r.1 ≤ c.toNat && c.toNat ≤ r.2

def text (s : String) : Bool := s.toList.all char

def trimStart (cs : List Char) : List Char := cs.dropWhile char

def trimEnd (cs : List Char) : List Char := (cs.reverse.dropWhile char).reverse

def trim (cs : List Char) : List Char := trimEnd (trimStart cs)

private theorem dropWhile_char_eq_nil (cs : List Char) :
    cs.dropWhile char = [] ↔ ∀ c ∈ cs, char c = true := by
  induction cs with
  | nil => simp
  | cons c cs ih =>
    by_cases h : char c = true
    · simp [h, ih]
    · simp [h]

theorem trim_eq_nil {cs : List Char} : trim cs = [] ↔ cs.all char = true := by
  have hend : ∀ ds : List Char, trimEnd ds = [] ↔ ds.all char = true := by
    intro ds
    rw [trimEnd, List.reverse_eq_nil_iff, dropWhile_char_eq_nil]
    simp
  rw [trim, hend, trimStart]
  constructor
  · intro h
    rw [List.all_eq_true] at h ⊢
    intro c hc
    rw [← List.takeWhile_append_dropWhile (p := char) (l := cs)] at hc
    rcases List.mem_append.mp hc with h1 | h1
    · exact List.all_eq_true.mp List.all_takeWhile c h1
    · exact h c h1
  · intro h
    have : cs.dropWhile char = [] := by
      rw [dropWhile_char_eq_nil]
      exact List.all_eq_true.mp h
    rw [this]
    rfl

/-- A text whose ends are no blanks is left alone. -/
theorem trim_of_solid {cs : List Char} (hh : ∀ c ∈ cs.head?, char c = false)
    (hl : ∀ c ∈ cs.getLast?, char c = false) : trim cs = cs := by
  have drop : ∀ ds : List Char, (∀ c ∈ ds.head?, char c = false) → ds.dropWhile char = ds := by
    intro ds h
    cases ds with
    | nil => rfl
    | cons d ds => simp [h d (by simp)]
  rw [trim, trimStart, drop cs hh, trimEnd, drop cs.reverse (by simpa using hl), List.reverse_reverse]

/-- `trim` on strings -/
def trimmed (s : String) : String := String.ofList (trim s.toList)

end Offload.Text.Blank
