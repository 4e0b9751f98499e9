import Mathlib.Data.List.Nodup
import Offload.Proofs.Json.Reader

/-!
# What records take off tokens

* `Record.Form`     how data is written, as an object with its members in any order or as a sequence;
* `Record.Lawful`   fields that fill a draft one by one, in any order.  Such a record is read just where it is
                    written in one of its forms (`Lawful.exact_read`);
* `Record.Crowded`  an object has a member that it should not have, which no form of data allows
                    (`Form.not_crowded`);
* `Record.gives_read`  what holds of every value of its fields holds of a record.
-/

namespace Offload.Json

namespace Record

open Reader

variable {δ α β : Type} {r : Record δ α}

/-! ## fields -/

/-- The field is read by a reader, and its value is put into the draft. -/
def Field.Stores (f : Field δ) (item : Reader β) (put : δ → β → δ) : Prop :=
  ∀ d ts, f.read d ts = (item ts).map fun r => (put d r.1, r.2)

section
variable {f : Field δ} {item : Reader β} {put : δ → β → δ}

theorem Field.Stores.exact (hf : f.Stores item put) {form : Value → β → Prop} (h : Exact item form) (d : δ) :
    Exact (f.read d) fun v e => ∃ b, form v b ∧ e = put d b := by
  intro v rest e rest'
  rw [hf]
  constructor
  · intro he
    cases hr : item (v.tokens ++ rest) with
    | error err =>
      rw [hr] at he
      cases he
    | ok q =>
      rw [hr] at he
      cases he
      obtain ⟨hb, hrest⟩ := h.of_ok hr
      exact ⟨⟨_, hb, rfl⟩, hrest⟩
  · rintro ⟨⟨b, hb, rfl⟩, rfl⟩
    rw [h.ok hb]
    rfl

theorem Field.Stores.gives (hf : f.Stores item put) {p : β → Prop} {q : δ → Prop} (h : Gives item p)
    {d : δ} (hq : ∀ a, p a → q (put d a)) : Gives (f.read d) q := by
  intro ts e rest hts he
  rw [hf] at he
  cases ha : item ts with
  | error err =>
    rw [ha] at he
    cases he
  | ok r =>
    rw [ha] at he
    cases he
    obtain ⟨hp, hrest⟩ := h hts ha
    exact ⟨hq r.1 hp, hrest⟩

end

/-! ## the forms of data -/

/-- All that the members tell of the data is so, and nothing is left out that has to be told. -/
structure Covers (tells : α → String → Value → Prop) (needs : α → String → Prop) (a : α)
    (ms : List (String × Value)) : Prop where
  told : ∀ m ∈ ms, tells a m.1 m.2
  all : ∀ name, needs a name → name ∈ ms.map Prod.fst

/-- Data is written as an object with its members in any order, or as a sequence of their values in the order
of declaration. -/
inductive Form (names : List String) (tells : α → String → Value → Prop) (needs : α → String → Prop) :
    Value → α → Prop
  | object {ms : List (String × Value)} {a : α} :
      (ms.map Prod.fst).Nodup → Covers tells needs a ms → Form names tells needs (.object ms) a
  | sequence {ms : List (String × Value)} {a : α} :
      ms.map Prod.fst <+: names → Covers tells needs a ms → Form names tells needs (.array (ms.map Prod.snd)) a

/-- Values are put into drafts by name, one after the other, until the draft is data. -/
structure Lawful (r : Record δ α) (puts : String → δ → Value → δ → Prop) (agrees : δ → α → Prop)
    (tells : α → String → Value → Prop) (needs : α → String → Prop) : Prop where
  nodup : (r.fields.map (·.name)).Nodup
  exact : ∀ f ∈ r.fields, ∀ d, Exact (f.read d) (puts f.name d)
  blank : ∀ f ∈ r.fields, f.present r.blank = false
  present : ∀ f ∈ r.fields, ∀ {d v e}, puts f.name d v e →
    ∀ g ∈ r.fields, g.present e = true ↔ g.present d = true ∨ g.name = f.name
  agrees_blank : ∀ a, agrees r.blank a
  agrees_puts : ∀ f ∈ r.fields, ∀ {d v e}, f.present d = false → puts f.name d v e →
    ∀ a, agrees e a ↔ agrees d a ∧ tells a f.name v
  puts_of_tells : ∀ {a name v}, tells a name v → ∃ f ∈ r.fields, f.name = name ∧ ∀ d, ∃ e, puts name d v e
  declared : ∀ {a name}, needs a name → ∃ f ∈ r.fields, f.name = name
  required : ∀ f ∈ r.fields, f.required = true → ∀ a, needs a f.name
  close : ∀ d a, r.close d = .ok a ↔ agrees d a ∧ ∀ f ∈ r.fields, needs a f.name → f.present d = true

/-- The members make the second draft out of the first.  Each is for a field that the draft does not hold when
its turn comes. -/
inductive Fills (r : Record δ α) (puts : String → δ → Value → δ → Prop) :
    δ → List (String × Value) → δ → Prop
  | nil {d} : Fills r puts d [] d
  | cons {f d v d' ms e} : f ∈ r.fields → f.present d = false → puts f.name d v d' →
      Fills r puts d' ms e → Fills r puts d ((f.name, v) :: ms) e

/-- The items of a sequence make the second draft out of the first, each for the next of the fields.  No field
that is required is left over. -/
inductive Lists (puts : String → δ → Value → δ → Prop) : List (Field δ) → δ → List Value → δ → Prop
  | nil {d} : Lists puts [] d [] d
  | leave {f fs d e} : f.required = false → Lists puts fs d [] e → Lists puts (f :: fs) d [] e
  | item {f fs d v d' vs e} : puts f.name d v d' → Lists puts fs d' vs e → Lists puts (f :: fs) d (v :: vs) e

section
variable {puts : String → δ → Value → δ → Prop} {agrees : δ → α → Prop} {tells : α → String → Value → Prop}
  {needs : α → String → Prop} (h : r.Lawful puts agrees tells needs)
include h

theorem Lawful.mem_names {a : α} {name : String} {v : Value} (ht : tells a name v) :
    name ∈ r.fields.map (·.name) := by
  obtain ⟨f, hf, rfl, -⟩ := h.puts_of_tells ht
  exact List.mem_map_of_mem hf

theorem Lawful.eq_of_name {f g : Field δ} (hf : f ∈ r.fields) (hg : g ∈ r.fields) (hn : f.name = g.name) :
    f = g := List.inj_on_of_nodup_map h.nodup hf hg hn

/-- No other field comes with it. -/
theorem Lawful.absent_of_puts {f g : Field δ} (hf : f ∈ r.fields) (hg : g ∈ r.fields) {d e : δ} {v : Value}
    (hputs : puts f.name d v e) (habsent : g.present d = false) (hn : g.name ≠ f.name) :
    g.present e = false := by
  rw [Bool.eq_false_iff]
  intro hthere
  rcases (h.present f hf hputs g hg).mp hthere with hold | hname
  · rw [habsent] at hold
    cases hold
  · exact hn hname

/-! ## filling a draft -/

section
variable {d e : δ} {ms : List (String × Value)} (hfills : r.Fills puts d ms e)
include hfills

theorem Lawful.fresh_of_fills : (ms.map Prod.fst).Nodup ∧
    ∀ f ∈ r.fields, f.name ∈ ms.map Prod.fst → f.present d = false := by
  induction hfills with
  | nil => exact ⟨List.nodup_nil, nofun⟩
  | @cons f d v d' ms e hf habsent hputs hrest ih =>
    obtain ⟨hnodup, hfresh⟩ := ih
    have hpresent := h.present f hf hputs
    refine ⟨List.nodup_cons.mpr ⟨fun hmem => ?_, hnodup⟩, fun g hg hmem => ?_⟩
    · -- the field is there from now on
      have hthere : f.present d' = true := (hpresent f hf).mpr (.inr rfl)
      rw [hfresh f hf hmem] at hthere
      cases hthere
    · rcases List.mem_cons.mp hmem with hname | hmem
      · rwa [h.eq_of_name hg hf hname]
      · have hgone := hfresh g hg hmem
        cases hgd : g.present d with
        | false => rfl
        | true =>
          rw [(hpresent g hg).mpr (.inl hgd)] at hgone
          cases hgone

theorem Lawful.present_of_fills {g : Field δ} (hg : g ∈ r.fields) :
    g.present e = true ↔ g.present d = true ∨ g.name ∈ ms.map Prod.fst := by
  induction hfills with
  | nil => simp only [List.map_nil, List.not_mem_nil, or_false]
  | cons hf habsent hputs hrest ih =>
    rw [ih, h.present _ hf hputs g hg, List.map_cons, List.mem_cons, or_assoc]

theorem Lawful.agrees_of_fills (a : α) : agrees e a ↔ agrees d a ∧ ∀ m ∈ ms, tells a m.1 m.2 := by
  induction hfills with
  | nil => simp only [List.not_mem_nil, false_implies, implies_true, and_true]
  | cons hf habsent hputs hrest ih =>
    rw [ih, h.agrees_puts _ hf habsent hputs, List.forall_mem_cons, and_assoc]

end

theorem Lawful.exists_fills {a : α} {ms : List (String × Value)} (htells : ∀ m ∈ ms, tells a m.1 m.2)
    (hnodup : (ms.map Prod.fst).Nodup) {d : δ}
    (hfresh : ∀ f ∈ r.fields, f.name ∈ ms.map Prod.fst → f.present d = false) : ∃ e, r.Fills puts d ms e := by
  induction ms generalizing d with
  | nil => exact ⟨d, .nil⟩
  | cons m ms ih =>
    obtain ⟨name, v⟩ := m
    obtain ⟨htell, hmore⟩ := List.forall_mem_cons.mp htells
    obtain ⟨hnew, hrest⟩ := List.nodup_cons.mp hnodup
    obtain ⟨f, hf, rfl, hput⟩ := h.puts_of_tells htell
    obtain ⟨d', hputs⟩ := hput d
    have habsent : f.present d = false := hfresh f hf List.mem_cons_self
    have hfresh' : ∀ g ∈ r.fields, g.name ∈ ms.map Prod.fst → g.present d' = false := by
      intro g hg hmem
      have hold := hfresh g hg (List.mem_cons_of_mem _ hmem)
      exact h.absent_of_puts hf hg hputs hold fun hname => hnew (hname ▸ hmem)
    obtain ⟨e, he⟩ := ih hmore hrest hfresh'
    exact ⟨e, .cons hf habsent hputs he⟩

/-- What fills a blank draft until it is the data, tells all about it. -/
theorem Lawful.fills_close_iff {ms : List (String × Value)} {a : α} :
    (∃ e, r.Fills puts r.blank ms e ∧ r.close e = .ok a) ↔
      (ms.map Prod.fst).Nodup ∧ Covers tells needs a ms := by
  constructor
  · rintro ⟨e, hfills, hclose⟩
    obtain ⟨hagrees, hneeds⟩ := (h.close e a).mp hclose
    refine ⟨(h.fresh_of_fills hfills).1, ((h.agrees_of_fills hfills a).mp hagrees).2, fun name hname => ?_⟩
    obtain ⟨f, hf, rfl⟩ := h.declared hname
    refine ((h.present_of_fills hfills hf).mp (hneeds f hf hname)).resolve_left fun hthere => ?_
    rw [h.blank f hf] at hthere
    cases hthere
  · rintro ⟨hnodup, hcovers⟩
    obtain ⟨e, hfills⟩ := h.exists_fills hcovers.told hnodup fun f hf _ => h.blank f hf
    refine ⟨e, hfills, (h.close e a).mpr ⟨?_, fun f hf hneed => ?_⟩⟩
    · exact (h.agrees_of_fills hfills a).mpr ⟨h.agrees_blank a, hcovers.told⟩
    · exact (h.present_of_fills hfills hf).mpr (.inr (hcovers.all _ hneed))

/-! ## objects -/

/-- A member is looked at by itself: its name first, then its value, and then what stands behind it. -/
theorem Lawful.named_member (name : String) (v : Value) (fuel : Nat) (d : δ) (rest : List Token)
    (r' : δ × List Token) :
    r.named (fuel + 1) d (.text name :: .colon :: (v.tokens ++ rest)) = .ok r' ↔
      ∃ f ∈ r.fields, f.name = name ∧ f.present d = false ∧ ∃ d', puts f.name d v d' ∧
        ((∃ rest', rest = .closeBrace :: rest' ∧ r' = (d', rest')) ∨
          ∃ rest', rest = .comma :: rest' ∧ r.named fuel d' rest' = .ok r') := by
  rw [Record.named]
  constructor
  · intro hread
    split at hread
    · cases hread
    · rename_i f hfind
      have hf := List.mem_of_find?_eq_some hfind
      have hname : f.name = name := by simpa using List.find?_some hfind
      split at hread
      · cases hread
      · rename_i habsent
        dsimp only at hread
        split at hread
        · cases hread
        · rename_i hvalue
          obtain ⟨hputs, hrest⟩ := (h.exact f hf d).of_ok hvalue
          cases hread
          exact ⟨f, hf, hname, Bool.eq_false_iff.mpr habsent, _, hputs, .inl ⟨_, hrest.symm, rfl⟩⟩
        · rename_i hvalue
          obtain ⟨hputs, hrest⟩ := (h.exact f hf d).of_ok hvalue
          exact ⟨f, hf, hname, Bool.eq_false_iff.mpr habsent, _, hputs, .inr ⟨_, hrest.symm, hread⟩⟩
        · cases hread
  · rintro ⟨f, hf, rfl, habsent, d', hputs, hbehind⟩
    have hfind : r.fields.find? (·.name = f.name) = some f := by
      cases hfound : r.fields.find? (·.name = f.name) with
      | none =>
        have hnone := List.find?_eq_none.mp hfound f hf
        exact absurd (decide_eq_true rfl) hnone
      | some g =>
        have hname : g.name = f.name := by simpa using List.find?_some hfound
        rw [h.eq_of_name (List.mem_of_find?_eq_some hfound) hf hname]
    have hread := (h.exact f hf d).ok hputs rest
    rw [hfind]
    dsimp only
    rw [habsent, if_neg Bool.false_ne_true, hread]
    rcases hbehind with ⟨rest', rfl, rfl⟩ | ⟨rest', rfl, hmore⟩
    · rfl
    · exact hmore

theorem Lawful.named (name : String) (v : Value) (ms : List (String × Value)) {fuel : Nat}
    (hf : ms.length < fuel) (d : δ) (rest : List Token) (e : δ) (rest' : List Token) :
    r.named fuel d (.text name :: .colon :: (v.tokens ++ (Value.memberTokens ms ++ rest))) = .ok (e, rest') ↔
      r.Fills puts d ((name, v) :: ms) e ∧ rest' = rest := by
  induction ms generalizing name v d fuel with
  | nil =>
    obtain ⟨fuel, rfl⟩ := Nat.exists_eq_succ_of_ne_zero (Nat.pos_iff_ne_zero.mp hf)
    rw [h.named_member]
    constructor
    · rintro ⟨f, hf, rfl, habsent, d', hputs, ⟨_, hrest, heq⟩ | ⟨_, hrest, -⟩⟩
      · cases hrest
        cases heq
        exact ⟨.cons hf habsent hputs .nil, rfl⟩
      · cases hrest
    · rintro ⟨hfills, rfl⟩
      cases hfills with
      | cons hf habsent hputs hnil =>
        cases hnil
        exact ⟨_, hf, rfl, habsent, _, hputs, .inl ⟨_, rfl, rfl⟩⟩
  | cons m ms ih =>
    obtain ⟨next, w⟩ := m
    obtain ⟨fuel, rfl⟩ := Nat.exists_eq_succ_of_ne_zero (Nat.pos_iff_ne_zero.mp (Nat.zero_lt_of_lt hf))
    have htokens : Value.memberTokens ((next, w) :: ms) ++ rest =
        .comma :: .text next :: .colon :: (w.tokens ++ (Value.memberTokens ms ++ rest)) := by
      rw [Value.memberTokens, List.append_assoc]
      rfl
    have hmore := ih next w (Nat.lt_of_succ_lt_succ hf)
    rw [h.named_member, htokens]
    constructor
    · rintro ⟨f, hf, rfl, habsent, d', hputs, ⟨_, hrest, -⟩ | ⟨_, hrest, hread⟩⟩
      · cases hrest
      · cases hrest
        obtain ⟨hfills, hrest⟩ := (hmore d').mp hread
        exact ⟨.cons hf habsent hputs hfills, hrest⟩
    · rintro ⟨hfills, rfl⟩
      cases hfills with
      | cons hf habsent hputs hfills =>
        exact ⟨_, hf, rfl, habsent, _, hputs, .inr ⟨_, rfl, (hmore _).mpr ⟨hfills, rfl⟩⟩⟩

theorem Lawful.draft_object (ms : List (String × Value)) (rest : List Token) (e : δ) (rest' : List Token) :
    r.draft ((Value.object ms).tokens ++ rest) = .ok (e, rest') ↔ r.Fills puts r.blank ms e ∧ rest' = rest := by
  cases ms with
  | nil =>
    show Except.ok (r.blank, rest) = .ok (e, rest') ↔ _
    constructor
    · intro heq
      cases heq
      exact ⟨.nil, rfl⟩
    · rintro ⟨hfills, rfl⟩
      cases hfills
      rfl
  | cons m ms =>
    obtain ⟨name, v⟩ := m
    have hlength : ms.length <
        (.text name :: .colon :: (v.tokens ++ (Value.memberTokens ms ++ rest)) : List Token).length := by
      have hms := Value.length_lt_memberTokens ms
      simp only [List.length_append, List.length_cons]
      omega
    rw [← h.named name v ms hlength, Value.tokens, List.append_assoc]
    rfl

/-! ## sequences -/

omit h in
theorem positional_end (f : Field δ) (fs : List (Field δ)) (i : Nat) (d : δ) (rest : List Token) :
    r.positional (f :: fs) i d (.closeBracket :: rest) =
      if f.required then .error (.tooShort i r.lengthWords)
      else r.positional fs (i + 1) d (.closeBracket :: rest) := by
  rw [Record.positional]

omit h in
theorem positional_item (f : Field δ) (fs : List (Field δ)) (i : Nat) (d : δ) (v : Value) (vs : List Value)
    (rest : List Token) :
    r.positional (f :: fs) i d (Value.itemsFrom i (v :: vs) ++ rest) =
      match f.read d (v.tokens ++ (Value.itemsFrom (i + 1) vs ++ rest)) with
      | .error err => .error err
      | .ok (d, rest) => r.positional fs (i + 1) d rest := by
  cases i with
  | zero =>
    obtain ⟨t, ts, hhead, ht⟩ := v.exists_tokens_eq_cons
    rw [Value.itemsFrom, List.append_assoc, Record.positional]
    · rfl
    · rw [hhead]
      intro rest heq
      cases heq
      exact ht
  | succ i =>
    rw [Value.itemsFrom, Value.itemTokens, List.cons_append, List.cons_append, List.append_assoc]
    rfl

omit h in
/-- Items too many are no part of the sequence. -/
theorem positional_nil_item (i : Nat) (d : δ) (v : Value) (vs : List Value) (rest : List Token) :
    r.positional [] i d (Value.itemsFrom i (v :: vs) ++ rest) = .error .malformed := by
  cases i with
  | zero =>
    obtain ⟨t, ts, hhead, ht⟩ := v.exists_tokens_eq_cons
    rw [Value.itemsFrom, Record.positional]
    rw [hhead]
    intro rest heq
    cases heq
    exact ht
  | succ i => rfl

/-- The items of a sequence from one of them on are for the fields from one of them on. -/
theorem Lawful.positional {fs : List (Field δ)} (hfs : fs ⊆ r.fields) (i : Nat) (d : δ) (vs : List Value)
    (rest : List Token) (e : δ) (rest' : List Token) :
    r.positional fs i d (Value.itemsFrom i vs ++ rest) = .ok (e, rest') ↔
      Lists puts fs d vs e ∧ rest' = rest := by
  induction fs generalizing i d vs with
  | nil =>
    cases vs with
    | nil =>
      rw [Value.itemsFrom_nil]
      show Except.ok (d, rest) = .ok (e, rest') ↔ _
      constructor
      · intro heq
        cases heq
        exact ⟨.nil, rfl⟩
      · rintro ⟨hlists, rfl⟩
        cases hlists
        rfl
    | cons v vs =>
      rw [positional_nil_item]
      exact ⟨nofun, nofun⟩
  | cons f fs ih =>
    obtain ⟨hf, hmore⟩ := List.cons_subset.mp hfs
    cases vs with
    | nil =>
      have hrest := ih hmore (i + 1) d []
      rw [Value.itemsFrom_nil, List.singleton_append] at hrest ⊢
      rw [positional_end]
      cases hreq : f.required with
      | true =>
        refine ⟨nofun, ?_⟩
        rintro ⟨_ | ⟨hno, -⟩, -⟩
        rw [hreq] at hno
        cases hno
      | false =>
        rw [if_neg Bool.false_ne_true, hrest]
        refine and_congr_left fun _ => ⟨.leave hreq, ?_⟩
        rintro (_ | ⟨-, hlists⟩)
        exact hlists
    | cons v vs =>
      rw [positional_item]
      constructor
      · intro hread
        split at hread
        · cases hread
        · rename_i hvalue
          obtain ⟨hputs, rfl⟩ := (h.exact f hf d).of_ok hvalue
          obtain ⟨hlists, hrest⟩ := (ih hmore _ _ vs).mp hread
          exact ⟨.item hputs hlists, hrest⟩
      · rintro ⟨_ | _ | ⟨hputs, hlists⟩, rfl⟩
        rw [(h.exact f hf d).ok hputs]
        exact (ih hmore _ _ vs).mpr ⟨hlists, rfl⟩

theorem Lawful.lists_of_fills {fs : List (Field δ)} (hfs : fs ⊆ r.fields) (hnodup : (fs.map (·.name)).Nodup)
    {ms : List (String × Value)} (horder : ms.map Prod.fst <+: fs.map (·.name))
    (hneeded : ∀ f ∈ fs, f.required = true → f.name ∈ ms.map Prod.fst) {d e : δ} (hfills : r.Fills puts d ms e) :
    Lists puts fs d (ms.map Prod.snd) e := by
  induction fs generalizing d ms with
  | nil =>
    obtain rfl := List.map_eq_nil_iff.mp (List.prefix_nil.mp horder)
    cases hfills
    exact .nil
  | cons f fs ih =>
    obtain ⟨hf, hmore⟩ := List.cons_subset.mp hfs
    obtain ⟨hnew, hdistinct⟩ := List.nodup_cons.mp hnodup
    obtain ⟨hfirst, hothers⟩ := List.forall_mem_cons.mp hneeded
    cases hfills with
    | nil =>
      have hnone : ([] : List (String × Value)).map Prod.fst <+: fs.map (·.name) := List.nil_prefix
      have hrest := ih hmore hdistinct hnone hothers .nil
      exact .leave (Bool.eq_false_iff.mpr fun hreq => nomatch hfirst hreq) hrest
    | @cons g _ v d' ms _ hg _ hputs hfills =>
      obtain ⟨hname, hfollow⟩ := List.cons_prefix_cons.mp horder
      obtain rfl := h.eq_of_name hg hf hname
      refine .item hputs (ih hmore hdistinct hfollow (fun k hk hreq => ?_) hfills)
      -- the first member is for the first field only
      refine (List.mem_cons.mp (hothers k hk hreq)).resolve_left fun hname => hnew ?_
      exact List.mem_map.mpr ⟨k, hk, hname⟩

/-- The items are the values of members for these fields, as far as they go. -/
theorem Lawful.lists_iff {fs : List (Field δ)} (hfs : fs ⊆ r.fields) (hnodup : (fs.map (·.name)).Nodup) {d : δ}
    (hfresh : ∀ f ∈ fs, f.present d = false) (vs : List Value) (e : δ) :
    Lists puts fs d vs e ↔ ∃ ms, vs = ms.map Prod.snd ∧ ms.map Prod.fst <+: fs.map (·.name) ∧
      (∀ f ∈ fs, f.required = true → f.name ∈ ms.map Prod.fst) ∧ r.Fills puts d ms e := by
  constructor
  · intro hlists
    induction hlists with
    | nil => exact ⟨[], rfl, List.nil_prefix, nofun, .nil⟩
    | @leave f fs d e hreq _ ih =>
      obtain ⟨-, hmore⟩ := List.cons_subset.mp hfs
      obtain ⟨-, hdistinct⟩ := List.nodup_cons.mp hnodup
      obtain ⟨ms, hms, -, hneeded, hfills⟩ := ih hmore hdistinct (List.forall_mem_cons.mp hfresh).2
      obtain rfl := List.map_eq_nil_iff.mp hms.symm
      refine ⟨[], rfl, List.nil_prefix, List.forall_mem_cons.mpr ⟨fun hyes => ?_, hneeded⟩, hfills⟩
      rw [hreq] at hyes
      cases hyes
    | @item f fs d v d' vs e hputs _ ih =>
      obtain ⟨hf, hmore⟩ := List.cons_subset.mp hfs
      obtain ⟨hnew, hdistinct⟩ := List.nodup_cons.mp hnodup
      obtain ⟨habsent, hlater⟩ := List.forall_mem_cons.mp hfresh
      have hstay : ∀ g ∈ fs, g.present d' = false := fun g hg =>
        h.absent_of_puts hf (hmore hg) hputs (hlater g hg) fun hname => hnew (List.mem_map.mpr ⟨g, hg, hname⟩)
      obtain ⟨ms, rfl, horder, hneeded, hfills⟩ := ih hmore hdistinct hstay
      refine ⟨(f.name, v) :: ms, rfl, List.cons_prefix_cons.mpr ⟨rfl, horder⟩, ?_,
        .cons hf habsent hputs hfills⟩
      exact List.forall_mem_cons.mpr ⟨fun _ => List.mem_cons_self, fun g hg hreq =>
        List.mem_cons_of_mem _ (hneeded g hg hreq)⟩
  · rintro ⟨ms, rfl, horder, hneeded, hfills⟩
    exact h.lists_of_fills hfs hnodup horder hneeded hfills

/-! ## records -/

/-- The drafts that are read. -/
theorem Lawful.exact_draft : Exact r.draft fun v e =>
    (∃ ms, v = .object ms ∧ r.Fills puts r.blank ms e) ∨
    ∃ ms, v = .array (ms.map Prod.snd) ∧ ms.map Prod.fst <+: r.fields.map (·.name) ∧
      (∀ f ∈ r.fields, f.required = true → f.name ∈ ms.map Prod.fst) ∧ r.Fills puts r.blank ms e := by
  intro v rest e rest'
  match v with
  | .null | .boolean _ | .number _ | .text _ =>
    refine ⟨nofun, ?_⟩
    rintro ⟨⟨_, heq, -⟩ | ⟨_, heq, -⟩, -⟩ <;> cases heq
  | .object ms =>
    rw [h.draft_object]
    refine and_congr_left fun _ => ⟨fun hfills => .inl ⟨ms, rfl, hfills⟩, ?_⟩
    rintro (⟨_, heq, hfills⟩ | ⟨_, heq, -⟩)
    · cases heq
      exact hfills
    · cases heq
  | .array vs =>
    have hdraft : r.draft ((Value.array vs).tokens ++ rest) =
        r.positional r.fields 0 r.blank (Value.itemsFrom 0 vs ++ rest) := by
      rw [Value.tokens_array]
      rfl
    rw [hdraft, h.positional (List.Subset.refl _), h.lists_iff (List.Subset.refl _) h.nodup h.blank]
    refine and_congr_left fun _ => ⟨fun ⟨ms, hms, hfills⟩ => .inr ⟨ms, congrArg _ hms, hfills⟩, ?_⟩
    rintro (⟨_, heq, -⟩ | ⟨ms, heq, hfills⟩)
    · cases heq
    · exact ⟨ms, Value.array.inj heq, hfills⟩

omit h in
theorem read_eq_ok_iff {ts rest : List Token} {a : α} :
    r.read ts = .ok (a, rest) ↔ ∃ e, r.draft ts = .ok (e, rest) ∧ r.close e = .ok a := by
  unfold Record.read
  constructor
  · intro hread
    split at hread
    · cases hread
    · split at hread
      · cases hread
      · cases hread
        exact ⟨_, ‹_›, ‹_›⟩
  · rintro ⟨e, hdraft, hclose⟩
    rw [hdraft]
    dsimp only
    rw [hclose]

/-- A record is read just where it is written as an object or as a sequence. -/
theorem Lawful.exact_read : Exact r.read (Form (r.fields.map (·.name)) tells needs) := by
  intro v rest a rest'
  rw [read_eq_ok_iff]
  constructor
  · rintro ⟨e, hdraft, hclose⟩
    obtain ⟨⟨ms, rfl, hfills⟩ | ⟨ms, rfl, horder, -, hfills⟩, hrest⟩ := h.exact_draft.of_ok hdraft
    · obtain ⟨hnodup, hcovers⟩ := h.fills_close_iff.mp ⟨e, hfills, hclose⟩
      exact ⟨.object hnodup hcovers, hrest⟩
    · obtain ⟨-, hcovers⟩ := h.fills_close_iff.mp ⟨e, hfills, hclose⟩
      exact ⟨.sequence horder hcovers, hrest⟩
  · rintro ⟨hform, rfl⟩
    cases hform with
    | object hnodup hcovers =>
      obtain ⟨e, hfills, hclose⟩ := h.fills_close_iff.mpr ⟨hnodup, hcovers⟩
      exact ⟨e, h.exact_draft.ok (.inl ⟨_, rfl, hfills⟩) _, hclose⟩
    | @sequence ms _ horder hcovers =>
      obtain ⟨e, hfills, hclose⟩ := h.fills_close_iff.mpr ⟨h.nodup.sublist horder.sublist, hcovers⟩
      have hneeded : ∀ f ∈ r.fields, f.required = true → f.name ∈ ms.map Prod.fst :=
        fun f hf hreq => hcovers.all _ (h.required f hf hreq a)
      exact ⟨e, h.exact_draft.ok (.inr ⟨ms, rfl, horder, hneeded, hfills⟩) _, hclose⟩

end

/-! ## members too many -/

/-- There is a member whose name is undeclared, or which another member has. -/
def Overfull (names : List String) (ms : List (String × Value)) : Prop :=
  ∃ before name v after, ms = before ++ (name, v) :: after ∧
    (name ∉ names ∨ name ∈ (before ++ after).map Prod.fst)

/-- The value is an object that is overfull, or something in one of its lists is not as it should be. -/
inductive Crowded (names : List String) (inner : Value → Prop) : Value → Prop
  | own {ms : List (String × Value)} : Overfull names ms → Crowded names inner (.object ms)
  | member {ms : List (String × Value)} {name : String} {vs : List Value} {v : Value} :
      (name, .array vs) ∈ ms → v ∈ vs → inner v → Crowded names inner (.object ms)
  | item {ws vs : List Value} {v : Value} :
      .array vs ∈ ws → v ∈ vs → inner v → Crowded names inner (.array ws)

section
variable {names : List String} {tells : α → String → Value → Prop} {needs : α → String → Prop}
  (hnames : ∀ {a name v}, tells a name v → name ∈ names)
include hnames

theorem not_overfull {ms : List (String × Value)} {a : α} (hnodup : (ms.map Prod.fst).Nodup)
    (hcovers : Covers tells needs a ms) : ¬ Overfull names ms := by
  rintro ⟨before, name, v, after, rfl, hname | hname⟩
  · exact hname (hnames (hcovers.told (name, v) (List.mem_append_right _ List.mem_cons_self)))
  · rw [List.map_append, List.map_cons, List.nodup_middle, ← List.map_append] at hnodup
    exact (List.nodup_cons.mp hnodup).1 hname

/-- No form of data is crowded if nothing in its lists is. -/
theorem Form.not_crowded {inner : Value → Prop}
    (hinner : ∀ {a name vs}, tells a name (.array vs) → ∀ v ∈ vs, ¬ inner v) {v : Value} {a : α}
    (h : Form names tells needs v a) : ¬ Crowded names inner v := by
  intro hc
  cases hc with
  | own hms =>
    cases h with
    | object hnodup hcovers => exact not_overfull hnames hnodup hcovers hms
  | member hm hv hc =>
    cases h with
    | object _ hcovers => exact hinner (hcovers.told _ hm) _ hv hc
  | item hw hv hc =>
    cases h with
    | sequence _ hcovers =>
      obtain ⟨m, hm, hmw⟩ := List.mem_map.mp hw
      have ht := hcovers.told m hm
      rw [hmw] at ht
      exact hinner ht _ hv hc

end

/-! ## the values of a record -/

section
variable {D : δ → Prop} (hfields : ∀ f ∈ r.fields, ∀ d, D d → Gives (f.read d) D)
include hfields

theorem gives_named (fuel : Nat) {d : δ} (hd : D d) : Gives (r.named fuel d) D := by
  intro ts e rest hts h
  fun_induction named r fuel d ts with
  | case5 _ _ _ f hf _ vs _ _ hread =>
    -- the last member
    have hvs := (List.forall_mem_cons.mp (List.forall_mem_cons.mp hts).2).2
    obtain ⟨hd, hrest⟩ := hfields f (List.mem_of_find?_eq_some hf) _ hd hvs hread
    cases h
    exact ⟨hd, (List.forall_mem_cons.mp hrest).2⟩
  | case6 _ _ _ f hf _ vs _ _ hread ih =>
    -- a member with others behind it
    have hvs := (List.forall_mem_cons.mp (List.forall_mem_cons.mp hts).2).2
    obtain ⟨hd, hrest⟩ := hfields f (List.mem_of_find?_eq_some hf) _ hd hvs hread
    exact ih hd (List.forall_mem_cons.mp hrest).2 h
  | _ => cases h

theorem gives_positional {fs : List (Field δ)} (hfs : fs ⊆ r.fields) (i : Nat) {d : δ} (hd : D d) :
    Gives (r.positional fs i d) D := by
  intro ts e rest hts h
  fun_induction positional r fs i d ts with
  | case1 =>
    -- the end of the sequence
    cases h
    exact ⟨hd, (List.forall_mem_cons.mp hts).2⟩
  | case4 _ _ _ _ _ _ ih =>
    -- a field that is left out
    exact ih (List.cons_subset.mp hfs).2 hd hts h
  | case6 f _ _ _ _ _ _ hread ih =>
    -- the first field
    obtain ⟨hf, hfs⟩ := List.cons_subset.mp hfs
    obtain ⟨hd, hrest⟩ := hfields f hf _ hd hts hread
    exact ih hfs hd hrest h
  | case8 f _ _ _ _ _ _ hread ih =>
    -- a later one, behind a comma
    obtain ⟨hf, hfs⟩ := List.cons_subset.mp hfs
    obtain ⟨hd, hrest⟩ := hfields f hf _ hd (List.forall_mem_cons.mp hts).2 hread
    exact ih hfs hd hrest h
  | _ => cases h

variable (hblank : D r.blank)
include hblank

theorem gives_draft : Gives r.draft D := by
  intro ts d rest hts h
  unfold draft at h
  split at h
  · cases h
    exact ⟨hblank, (List.forall_mem_cons.mp (List.forall_mem_cons.mp hts).2).2⟩
  · exact gives_named hfields _ hblank (List.forall_mem_cons.mp hts).2 h
  · exact gives_positional hfields (List.Subset.refl _) 0 hblank (List.forall_mem_cons.mp hts).2 h
  · cases h

/-- A record has what its draft has. -/
theorem gives_read {p : α → Prop} (hfinish : ∀ d a, D d → r.finish d = some a → p a) :
    Gives r.read p := by
  intro ts a rest hts h
  unfold read at h
  split at h
  · cases h
  · rename_i d rest' hdraft
    obtain ⟨hd, hrest⟩ := gives_draft hfields hblank hts hdraft
    split at h
    · cases h
    · rename_i b hclose
      cases h
      refine ⟨hfinish d a hd ?_, hrest⟩
      unfold close at hclose
      split at hclose
      · cases hclose
      · split at hclose
        · rename_i hb
          cases hclose
          exact hb
        · cases hclose

end

end Record

end Offload.Json
