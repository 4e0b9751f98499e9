import Offload.Size

/-!
# Numerals for sizes

How a size is read from text: an optional plus sign, then one or more decimal digits.

* `Numeral.read`      the size, or the first reason why the text is none.  Digits are taken from
                      the left; at each the digit is looked at first and the range second, so a
                      bad character behind an overflow is never reached;
* `Numeral.digits`    the decimal digits of a natural, most significant first.
-/

namespace Offload.Text.Numeral

inductive Fault where
  | empty
  | badDigit
  | tooLarge
  deriving DecidableEq, Repr

def Fault.message : Fault → String
  | empty => "cannot parse integer from empty string"
  | badDigit => "invalid digit found in string"
  | tooLarge => "number too large to fit in target type"

def digit? (c : Char) : Option Nat :=
  if '0' ≤ c ∧ c ≤ '9' then some (c.toNat - '0'.toNat) else none

/-- digits read onto a value -/
def readOnto : Nat → List Char → Except Fault Nat
  | n, [] => .ok n
  | n, c :: cs =>
    match digit? c with
    | none => .error .badDigit
    | some d => if 10 * n + d < Size.limit then readOnto (10 * n + d) cs else .error .tooLarge

def readChars : List Char → Except Fault Nat
  | [] => .error .empty
  | ['+'] => .error .badDigit
  | '+' :: cs => readOnto 0 cs
  | cs => readOnto 0 cs

def read (s : String) : Except Fault Nat := readChars s.toList

/-! ## the digits of a natural -/

/-- the character of a digit below ten -/
def ofDigit (d : Nat) : Char := Char.ofNat ('0'.toNat + d)

def digits (n : Nat) : List Char :=
  if n < 10 then [ofDigit n] else digits (n / 10) ++ [ofDigit (n % 10)]
  termination_by n
  decreasing_by omega

theorem digits_of_lt {n : Nat} (h : n < 10) : digits n = [ofDigit n] := by
  rw [digits]; simp [h]

theorem digits_of_le {n : Nat} (h : 10 ≤ n) : digits n = digits (n / 10) ++ [ofDigit (n % 10)] := by
  rw [digits]; simp [Nat.not_lt.mpr h]

theorem digit?_ofDigit {d : Nat} (h : d < 10) : digit? (ofDigit d) = some d := by
  have : ∀ d : Fin 10, digit? (ofDigit d) = some d.val := by decide
  exact this ⟨d, h⟩

theorem digits_ne_nil (n : Nat) : digits n ≠ [] := by
  by_cases h : n < 10
  · simp [digits_of_lt h]
  · simp [digits_of_le (Nat.le_of_not_lt h)]

/-- every digit character stands for a digit -/
theorem digit?_of_mem_digits (n : Nat) : ∀ c ∈ digits n, ∃ d < 10, c = ofDigit d := by
  induction n using Nat.strongRecOn with
  | ind n ih =>
    intro c hc
    by_cases h : n < 10
    · rw [digits_of_lt h] at hc
      exact ⟨n, h, List.mem_singleton.mp hc⟩
    · rw [digits_of_le (Nat.le_of_not_lt h)] at hc
      rcases List.mem_append.mp hc with h1 | h1
      · exact ih _ (by omega) c h1
      · exact ⟨n % 10, Nat.mod_lt _ (by omega), List.mem_singleton.mp h1⟩

end Offload.Text.Numeral
