import Offload.Json.Value
import Offload.Proofs.Json.Token

/-!
# The tokens of values

* `Value.exists_tokens_eq_cons`  a value starts with a token that closes and parts nothing;
* `Value.tokens_array_eq`        a sequence is its items with commas between them;
* `Value.Legible`                a value that can be written;
* `Value.parted_tokens`          every number of a value ends where the next token starts, so that a text which
                                 holds the tokens of a value is read as them (`scan_of_spells`).
-/

namespace Offload.Json.Value

open Token (Parted)

/-- a token that a value starts with -/
def Starts : Token → Prop
  | .closeBrace | .closeBracket | .colon | .comma | .bad => False
  | _ => True

theorem exists_tokens_eq_cons (v : Value) : ∃ t ts, v.tokens = t :: ts ∧ Starts t := by
  match v with
  | null | boolean _ | number _ | text _ => exact ⟨_, _, rfl, trivial⟩
  | array [] | array (_ :: _) | object [] | object (_ :: _) => exact ⟨_, _, rfl, trivial⟩

/-! ## items and members -/

/-- the items of a sequence from one of them on; all but the first have a comma in front -/
def itemsFrom : Nat → List Value → List Token
  | 0, [] => [.closeBracket]
  | 0, v :: vs => v.tokens ++ itemTokens vs
  | _ + 1, vs => itemTokens vs

theorem tokens_array (vs : List Value) : (array vs).tokens = .openBracket :: itemsFrom 0 vs := by
  cases vs <;> rfl

theorem itemsFrom_nil (i : Nat) : itemsFrom i [] = [.closeBracket] := by
  cases i <;> rfl

theorem length_lt_itemTokens (vs : List Value) : vs.length < (itemTokens vs).length := by
  induction vs with
  | nil => exact Nat.one_pos
  | cons v vs ih =>
    rw [itemTokens, List.length_append, List.length_cons, List.length_cons]
    omega

theorem length_lt_memberTokens (ms : List (String × Value)) : ms.length < (memberTokens ms).length := by
  induction ms with
  | nil => exact Nat.one_pos
  | cons m ms ih =>
    rw [memberTokens]
    simp only [List.length_append, List.length_cons]
    omega

theorem itemTokens_eq (v : Value) (vs : List Value) : v.tokens ++ itemTokens vs =
    [.comma].intercalate ((v :: vs).map tokens) ++ [.closeBracket] := by
  induction vs generalizing v with
  | nil => rw [List.map_singleton, List.intercalate_singleton, itemTokens]
  | cons w vs ih =>
    rw [itemTokens, List.cons_append, ih, List.map_cons, List.map_cons, List.map_cons,
      List.intercalate_cons_cons, List.append_assoc, List.append_assoc]
    rfl

theorem tokens_array_eq (vs : List Value) : (array vs).tokens =
    .openBracket :: [.comma].intercalate (vs.map tokens) ++ [.closeBracket] := by
  cases vs with
  | nil => rfl
  | cons v vs => rw [tokens, List.cons_append, itemTokens_eq, List.cons_append]

/-! ## values that can be written -/

/-- Every token stands for itself when it is written. -/
def Legible (v : Value) : Prop := ∀ t ∈ v.tokens, t.Legible

theorem legible_text (s : String) : Legible (text s) := List.forall_mem_singleton.mpr trivial

theorem legible_size {n : Nat} (h : n < Size.limit) : Legible (number (.natural n)) :=
  List.forall_mem_singleton.mpr h

theorem legible_itemTokens {vs : List Value} (h : ∀ v ∈ vs, Legible v) : ∀ t ∈ itemTokens vs, t.Legible := by
  induction vs with
  | nil => exact List.forall_mem_singleton.mpr trivial
  | cons v vs ih =>
    obtain ⟨hv, hvs⟩ := List.forall_mem_cons.mp h
    exact List.forall_mem_cons.mpr ⟨trivial, List.forall_mem_append.mpr ⟨hv, ih hvs⟩⟩

theorem legible_array {vs : List Value} (h : ∀ v ∈ vs, Legible v) : Legible (array vs) := by
  cases vs with
  | nil => exact List.forall_mem_cons.mpr ⟨trivial, List.forall_mem_singleton.mpr trivial⟩
  | cons v vs =>
    obtain ⟨hv, hvs⟩ := List.forall_mem_cons.mp h
    exact List.forall_mem_cons.mpr ⟨trivial, List.forall_mem_append.mpr ⟨hv, legible_itemTokens hvs⟩⟩

theorem legible_memberTokens {ms : List (String × Value)} (h : ∀ m ∈ ms, Legible m.2) :
    ∀ t ∈ memberTokens ms, t.Legible := by
  induction ms with
  | nil => exact List.forall_mem_singleton.mpr trivial
  | cons m ms ih =>
    obtain ⟨hm, hms⟩ := List.forall_mem_cons.mp h
    simp only [memberTokens, List.cons_append, List.forall_mem_cons, List.forall_mem_append]
    exact ⟨trivial, trivial, trivial, hm, ih hms⟩

theorem legible_object {ms : List (String × Value)} (h : ∀ m ∈ ms, Legible m.2) : Legible (object ms) := by
  cases ms with
  | nil => exact List.forall_mem_cons.mpr ⟨trivial, List.forall_mem_singleton.mpr trivial⟩
  | cons m ms =>
    obtain ⟨hm, hms⟩ := List.forall_mem_cons.mp h
    simp only [Legible, tokens, List.cons_append, List.forall_mem_cons, List.forall_mem_append]
    exact ⟨trivial, trivial, trivial, hm, legible_memberTokens hms⟩

/-! ## numbers -/

/-- A number ends in front of these tokens. -/
def Fenced (ts : List Token) : Prop := ∃ t rest, ts = t :: rest ∧ t.Plain

theorem fenced_items (vs : List Value) (rest : List Token) : Fenced (itemTokens vs ++ rest) := by
  cases vs <;> exact ⟨_, _, rfl, trivial⟩

theorem fenced_members (ms : List (String × Value)) (rest : List Token) : Fenced (memberTokens ms ++ rest) := by
  cases ms <;> exact ⟨_, _, rfl, trivial⟩

mutual

theorem parted_value (v : Value) {rest : List Token} (hf : Fenced rest) (h : Parted rest) :
    Parted (v.tokens ++ rest) := by
  match v with
  | null | boolean _ | text _ => exact .plain trivial h
  | number _ =>
    obtain ⟨t, ts, rfl, ht⟩ := hf
    exact List.isChain_cons_cons.mpr ⟨fun _ => ht, h⟩
  | array [] | object [] => exact .plain trivial (.plain trivial h)
  | array (v :: vs) =>
    have hv := parted_value v (fenced_items vs rest) (parted_items vs h)
    rw [tokens, List.append_assoc]
    exact .plain trivial hv
  | object ((name, v) :: ms) =>
    have hv := parted_value v (fenced_members ms rest) (parted_members ms h)
    rw [tokens, List.append_assoc]
    exact .plain trivial (.plain trivial (.plain trivial hv))

theorem parted_items (vs : List Value) {rest : List Token} (h : Parted rest) :
    Parted (itemTokens vs ++ rest) := by
  match vs with
  | [] => exact .plain trivial h
  | v :: vs =>
    have hv := parted_value v (fenced_items vs rest) (parted_items vs h)
    rw [itemTokens, List.append_assoc]
    exact .plain trivial hv

theorem parted_members (ms : List (String × Value)) {rest : List Token} (h : Parted rest) :
    Parted (memberTokens ms ++ rest) := by
  match ms with
  | [] => exact .plain trivial h
  | (name, v) :: ms =>
    have hv := parted_value v (fenced_members ms rest) (parted_members ms h)
    rw [memberTokens, List.append_assoc]
    exact .plain trivial (.plain trivial (.plain trivial hv))

end

theorem parted_tokens (v : Value) : Parted v.tokens := by
  have hend : Parted [.closeBracket] := List.IsChain.singleton _
  exact List.IsChain.left_of_append (parted_value v ⟨.closeBracket, [], rfl, trivial⟩ hend)

/-- A text that holds the tokens of a value is read as them. -/
theorem scan_of_spells {cs : List Char} {v : Value} (h : Token.Spells cs v.tokens) :
    Token.scan cs = v.tokens := Token.scan_of_spells h v.parted_tokens

end Offload.Json.Value
