/-!
# Cutting a text at a mark

* `Pieces.cut`   the pieces between the marks; one more than there are marks, and so never none
                 (`cut_ne_nil`);
* `Pieces.join`  the way back (`join_cut`).  What is joined can be cut again as long as no piece
                 holds the mark (`cut_join`).
-/

namespace Offload.Text.Pieces

def cut (mark : Char) : List Char → List (List Char)
  | [] => [[]]
  | c :: cs =>
    if c = mark then [] :: cut mark cs
    else
      match cut mark cs with
      | [] => [[c]]
      | p :: ps => (c :: p) :: ps

def join (mark : Char) : List (List Char) → List Char
  | [] => []
  | [p] => p
  | p :: q :: ps => p ++ mark :: join mark (q :: ps)

theorem cut_ne_nil (mark : Char) (cs : List Char) : cut mark cs ≠ [] := by
  cases cs with
  | nil => simp [cut]
  | cons c cs =>
    rw [cut]
    split
    · simp
    · split <;> simp

theorem cut_of_not_mem {mark : Char} {cs : List Char} (h : mark ∉ cs) : cut mark cs = [cs] := by
  induction cs with
  | nil => rfl
  | cons c cs ih =>
    rw [List.mem_cons, not_or] at h
    rw [cut, if_neg (Ne.symm h.1), ih h.2]

theorem cut_append {mark : Char} {p : List Char} (h : mark ∉ p) (cs : List Char) :
    cut mark (p ++ mark :: cs) = p :: cut mark cs := by
  induction p with
  | nil => simp [cut]
  | cons c p ih =>
    rw [List.mem_cons, not_or] at h
    rw [List.cons_append, cut, if_neg (Ne.symm h.1), ih h.2]

theorem cut_join {mark : Char} {ps : List (List Char)} (hne : ps ≠ [])
    (h : ∀ p ∈ ps, mark ∉ p) : cut mark (join mark ps) = ps := by
  induction ps with
  | nil => exact absurd rfl hne
  | cons p ps ih =>
    cases ps with
    | nil => exact cut_of_not_mem (h p (by simp))
    | cons q ps =>
      rw [join, cut_append (h p (by simp)), ih (by simp) fun r hr => h r (by simp_all)]

theorem join_cut (mark : Char) (cs : List Char) : join mark (cut mark cs) = cs := by
  induction cs with
  | nil => rfl
  | cons c cs ih =>
    rw [cut]
    split
    · rename_i h
      subst h
      cases hc : cut c cs with
      | nil => exact absurd hc (cut_ne_nil c cs)
      | cons p ps => rw [join, ← hc, ih, List.nil_append]
    · cases hc : cut mark cs with
      | nil => exact absurd hc (cut_ne_nil mark cs)
      | cons p ps =>
        rw [hc] at ih
        cases ps with
        | nil => rw [← ih]; rfl
        | cons q ps => rw [← ih]; rfl

/-- the pieces of a string -/
def ofString (mark : Char) (s : String) : List String := (cut mark s.toList).map String.ofList

end Offload.Text.Pieces
