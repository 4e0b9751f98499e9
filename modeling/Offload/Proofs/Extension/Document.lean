import Offload.Proofs.Extension.Form

/-!
# Written tables read back

* `Document.value`        the value that is written for a list of descriptions.  It has the form of them
                          (`form_value`), and what is written spells it (`spells_render`);
* `Document.parse_render`  hence a written document reads back as its descriptions;
* `Document.width_lt_of_parse`  no document has a width that is no size;
* `Table.document_round_trip`  a written table is read as the same table, and so is every table that was
                          read before.
-/

namespace Offload.Extension

open Json Reader

/-! ## the values that are written -/

/-- the members of the object that a description is written as -/
def Spec.members (s : Spec) : List (String × Value) :=
  [("name", .text s.name), ("width_bits", .number (.natural s.width)),
   ("cpu_flags", .array (s.flags.map .text))] ++
  (s.elements.map fun es => ("element_types", .array (es.map fun e => .text e.name))).toList

namespace Document

def value (specs : List Spec) : Value :=
  .object [("extensions", .array (specs.map fun s => .object s.members))]

theorem sequence_eq (ts : List Token) :
    sequence ts = .openBracket :: [.comma].intercalate (ts.map ([·])) ++ [.closeBracket] := by
  have h : ts.intersperse .comma = [Token.comma].intercalate (ts.map ([·])) := by
    induction ts with
    | nil => rfl
    | cons t ts ih =>
      cases ts with
      | nil => rfl
      | cons u ts =>
        rw [List.intersperse_cons_cons, List.map_cons, List.map_cons, List.intercalate_cons_cons, ih]
        rfl
  rw [sequence, h]

/-- A list of values that are one token each is written as a sequence. -/
theorem tokens_sequence {α : Type} {f : α → Value} {g : α → Token} (h : ∀ a, (f a).tokens = [g a])
    (as : List α) : (Value.array (as.map f)).tokens = sequence (as.map g) := by
  rw [Value.tokens_array_eq, sequence_eq, List.map_map, List.map_map]
  congr 4
  exact funext h

theorem tokens_members (s : Spec) : (Value.object s.members).tokens = specTokens s := by
  have hflags : (Value.array (s.flags.map .text)).tokens = sequence (s.flags.map .text) :=
    tokens_sequence (fun _ => rfl) s.flags
  unfold Spec.members specTokens
  cases s.elements with
  | none => simp [Value.tokens, Value.memberTokens, hflags]
  | some es =>
    have helements : (Value.array (es.map fun e => .text e.name)).tokens = sequence (es.map Element.token) :=
      tokens_sequence (fun _ => rfl) es
    simp [Value.tokens, Value.memberTokens, hflags, helements]

theorem tokens_value (specs : List Spec) : (value specs).tokens = tokens specs := by
  have hspecs : (specs.map fun s => Value.object s.members).map Value.tokens = specs.map specTokens := by
    rw [List.map_map]
    exact List.map_congr_left fun s _ => tokens_members s
  rw [value, Value.tokens, Value.tokens_array_eq, hspecs]
  simp [tokens, Value.memberTokens]

theorem legible_members {s : Spec} (h : s.width < Size.limit) : ∀ m ∈ s.members, m.2.Legible := by
  have hlist : ∀ {α : Type} (f : α → String) (as : List α),
      (Value.array (as.map fun a => .text (f a))).Legible := by
    intro α f as
    refine Value.legible_array fun v hv => ?_
    obtain ⟨a, -, rfl⟩ := List.mem_map.mp hv
    exact Value.legible_text _
  intro m hm
  rcases List.mem_append.mp hm with hm | hm
  · simp only [List.mem_cons, List.not_mem_nil, or_false] at hm
    rcases hm with rfl | rfl | rfl
    · exact Value.legible_text _
    · exact Value.legible_size h
    · exact hlist id s.flags
  · obtain ⟨es, -, rfl⟩ := Option.map_eq_some_iff.mp (Option.mem_toList.mp hm)
    exact hlist Element.name es

theorem legible_value {specs : List Spec} (h : ∀ s ∈ specs, s.width < Size.limit) : (value specs).Legible := by
  refine Value.legible_object (List.forall_mem_singleton.mpr (Value.legible_array fun v hv => ?_))
  obtain ⟨s, hs, rfl⟩ := List.mem_map.mp hv
  exact Value.legible_object (legible_members (h s hs))

/-- What is written spells the value. -/
theorem spells_render {specs : List Spec} (h : ∀ s ∈ specs, s.width < Size.limit) :
    Token.Spells (render specs).toList (value specs).tokens := by
  have hwritten := Token.spells_writeAll (legible_value h)
  rwa [tokens_value] at hwritten ⊢

theorem form_members (s : Spec) : Spec.Form (.object s.members) s := by
  obtain ⟨name, width, flags, elements⟩ := s
  cases elements with
  | none =>
    refine .object (by simp [Spec.members]) ⟨?_, fun key hkey => ?_⟩
    · simp only [Spec.members, Option.map_none, Option.toList_none, List.append_nil, List.forall_mem_cons]
      exact ⟨rfl, rfl, rfl, nofun⟩
    · obtain ⟨f, hf, rfl⟩ := Spec.declared_of_needs hkey
      rcases Spec.mem_fields hf with rfl | rfl | rfl | rfl
      · exact List.mem_cons_self
      · exact List.mem_cons_of_mem _ List.mem_cons_self
      · exact List.mem_cons_of_mem _ (List.mem_cons_of_mem _ List.mem_cons_self)
      · -- there are no element types
        exact absurd rfl hkey
  | some es =>
    have hes : List.Forall₂ Element.Form (es.map fun e => .text e.name) es := by
      rw [List.forall₂_map_left_iff, List.forall₂_same]
      exact fun e _ => .name e
    refine .object (by simp [Spec.members]) ⟨?_, fun key hkey => ?_⟩
    · simp only [Spec.members, Option.map_some, Option.toList_some, List.cons_append, List.nil_append,
        List.forall_mem_cons]
      exact ⟨rfl, rfl, rfl, .listed hes, nofun⟩
    · obtain ⟨f, hf, rfl⟩ := Spec.declared_of_needs hkey
      -- all fields are written
      exact (List.mem_map_of_mem hf : f.name ∈ Spec.record.fields.map (·.name))

theorem form_value (specs : List Spec) : Form (value specs) specs := by
  have hspecs : List.Forall₂ Spec.Form (specs.map fun s => .object s.members) specs := by
    rw [List.forall₂_map_left_iff, List.forall₂_same]
    exact fun s _ => form_members s
  refine .object (List.nodup_singleton _) ⟨?_, fun name hname => ?_⟩
  · exact List.forall_mem_singleton.mpr ⟨_, rfl, hspecs⟩
  · exact List.mem_singleton.mpr hname

/-- A written document reads back. -/
theorem parse_render {specs : List Spec} (h : ∀ s ∈ specs, s.width < Size.limit) :
    parse (render specs) = .ok specs :=
  (parse_eq_ok_iff (spells_render h) specs).mpr (form_value specs)

/-! ## widths -/

theorem gives_element : Gives Element.read fun _ => True := by
  intro ts e rest hts h
  unfold Element.read at h
  split at h
  · split at h
    · cases h
    · cases h
      exact ⟨trivial, (List.forall_mem_cons.mp hts).2⟩
  · split at h
    · cases h
    · have hts := (List.forall_mem_cons.mp (List.forall_mem_cons.mp hts).2).2
      unfold Element.readMember at h
      split at h
      · split at h
        · cases h
        · rename_i hnull
          cases h
          have hrest := (gives_null "unit" (List.forall_mem_cons.mp hts).2 hnull).2
          exact ⟨trivial, (List.forall_mem_cons.mp hrest).2⟩
        · cases h
      · cases h
  · cases h

theorem gives_spec : Gives Spec.record.read fun s => s.width < Size.limit := by
  refine Record.gives_read (D := fun d => ∀ w ∈ d.width, w < Size.limit) ?_ ?_ ?_
  · intro f hf d hd
    rcases Spec.mem_fields hf with rfl | rfl | rfl | rfl
    · exact Spec.nameField_stores.gives (gives_text _) fun _ _ => hd
    · exact Spec.widthField_stores.gives (gives_size _) fun w hw _ h => Option.some.inj h ▸ hw
    · exact Spec.flagsField_stores.gives (gives_text _).list fun _ _ => hd
    · exact Spec.elementsField_stores.gives gives_element.list.optional fun _ _ => hd
  · intro w h
    cases h
  · intro d s hd h
    obtain ⟨name, width, flags, elements⟩ := d
    change Spec.Draft.finish _ = _ at h
    unfold Spec.Draft.finish at h
    split at h
    · rename_i hw
      cases h
      exact hd _ hw
    · cases h

/-- The widths of a document are sizes. -/
theorem width_lt_of_parse {text : String} {specs : List Spec} (h : parse text = .ok specs) :
    ∀ s ∈ specs, s.width < Size.limit := by
  have hread : Gives record.read fun specs => ∀ s ∈ specs, s.width < Size.limit := by
    refine Record.gives_read (D := fun d => ∀ specs ∈ d, ∀ s ∈ specs, s.width < Size.limit) ?_ ?_ ?_
    · intro f hf d hd
      obtain rfl := List.mem_singleton.mp hf
      exact extensionsField_stores.gives gives_spec.list fun _ hs _ h => Option.some.inj h ▸ hs
    · intro specs h
      cases h
    · exact fun _ _ hd h => hd _ h
  exact hread.whole (Token.sized_scan _) h

end Document

end Offload.Extension

namespace Offload.Table

open Extension

theorem width_lt_of_ofText {text : String} {t : Table} (h : ofText text = .ok t) :
    ∀ s ∈ t.specs, s.width < Size.limit := by
  unfold ofText at h
  split at h
  · rename_i specs hparse
    obtain rfl := ofSpecs_eq_ok_iff.mp h
    exact Document.width_lt_of_parse hparse
  · cases h

theorem ofText_document {t : Table} (h : ∀ s ∈ t.specs, s.width < Size.limit) : ofText t.document = .ok t := by
  unfold ofText document
  rw [Document.parse_render h]
  exact ofSpecs_eq_ok_iff.mpr rfl

/-- **Tables go through their documents unharmed.**  The document of a table is read as this very table,
whatever its names and flags are, so that documents tell tables apart; and what was read from any text is
written as a document that is read as the same again. -/
theorem document_round_trip :
    (∀ t : Table, (∀ s ∈ t.specs, s.width < Size.limit) → ofText t.document = .ok t) ∧
    (∀ t u : Table, (∀ s ∈ t.specs, s.width < Size.limit) → (∀ s ∈ u.specs, s.width < Size.limit) →
      t.document = u.document → t.specs = u.specs) ∧
    ∀ text t, ofText text = .ok t → ofText t.document = .ok t := by
  refine ⟨fun t ht => ofText_document ht, fun t u ht hu h => ?_, fun text t h => ?_⟩
  · have htu := ofText_document ht
    rw [h, ofText_document hu] at htu
    cases htu
    rfl
  · exact ofText_document (width_lt_of_ofText h)

example : Document.render [⟨"a\"\\\x01", 16, [], some []⟩] =
    "\x7b\"extensions\":[\x7b\"name\":\"a\\\"\\\\\\u0001\",\"width_bits\":16,\"cpu_flags\":[]," ++
      "\"element_types\":[]\x7d]\x7d" := by decide +kernel

end Offload.Table
