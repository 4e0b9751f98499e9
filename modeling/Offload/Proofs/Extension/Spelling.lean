import Offload.Proofs.Extension.Form

/-!
# Spellings of extension tables

A document can be spelled in many ways.

* `Document.Crowded`      an object in a document, its own, that of a description or that of an element type, has
                          a member that it should not have.  No form of a document is so;
* `Table.spellings_agree`  all spellings of a document make the same table, and what is no form of a document is
                          refused.
-/

namespace Offload

open Json

/-! ## members too many -/

namespace Element

/-- an object with more than one member -/
def Crowded (v : Value) : Prop := ∃ ms, v = .object ms ∧ 1 < ms.length

theorem Form.not_crowded {v : Value} {e : Element} (h : Form v e) : ¬ Crowded v := by
  rintro ⟨ms, rfl, hms⟩
  cases h
  exact absurd hms (Nat.lt_irrefl 1)

end Element

namespace Extension

/-- An object in the description, its own or that of an element type, has a member that it should not have. -/
def Spec.Crowded : Value → Prop := Record.Crowded fieldNames Element.Crowded

theorem Spec.Tells.not_crowded {s : Spec} {name : String} {vs : List Value} (h : s.Tells name (.array vs)) :
    ∀ v ∈ vs, ¬ Element.Crowded v := by
  unfold Tells at h
  split at h
  · cases h
  · cases h
  · -- flags are no objects
    rintro v hv ⟨ms, rfl, -⟩
    obtain rfl := Value.array.inj h
    obtain ⟨flag, -, hflag⟩ := List.mem_map.mp hv
    cases hflag
  · generalize s.elements = es at h
    cases h with
    | listed hes =>
      exact ((List.forall₂_and_left ..).mp (hes.imp fun _ _ he => ⟨he.not_crowded, he⟩)).1
  · exact h.elim

theorem Spec.Form.not_crowded {v : Value} {s : Spec} (h : Form v s) : ¬ Crowded v :=
  Record.Form.not_crowded Spec.lawful.mem_names Tells.not_crowded h

/-- An object in the document has a member that it should not have. -/
def Document.Crowded : Value → Prop := Record.Crowded fieldNames Spec.Crowded

theorem Document.Tells.not_crowded {specs : List Spec} {name : String} {vs : List Value}
    (h : Tells specs name (.array vs)) : ∀ v ∈ vs, ¬ Spec.Crowded v := by
  unfold Tells at h
  split at h
  · obtain ⟨us, hus, hspecs⟩ := h
    obtain rfl := Value.array.inj hus
    exact ((List.forall₂_and_left ..).mp (hspecs.imp fun _ _ hs => ⟨hs.not_crowded, hs⟩)).1
  · exact h.elim

theorem Document.Form.not_crowded {v : Value} {specs : List Spec} (h : Form v specs) : ¬ Crowded v :=
  Record.Form.not_crowded Document.lawful.mem_names Tells.not_crowded h

end Extension

/-! ## tables -/

namespace Table

open Extension

theorem ofText_of_form {text : String} {v : Value} (h : Token.Spells text.toList v.tokens) {specs : List Spec}
    (hv : Document.Form v specs) : ofText text = ofSpecs specs := by
  unfold ofText
  rw [(Document.parse_eq_ok_iff h specs).mpr hv]

theorem ofText_of_not_form {text : String} {v : Value} (h : Token.Spells text.toList v.tokens)
    (hv : ∀ specs, ¬ Document.Form v specs) :
    ∃ fault : Fault, ofText text = .error (.invalidConfig ("extension table: " ++ fault.detail)) := by
  unfold ofText
  cases hp : Document.parse text with
  | error fault => exact ⟨fault, rfl⟩
  | ok specs => exact absurd ((Document.parse_eq_ok_iff h specs).mp hp) (hv specs)

/-- **All spellings of a document make the same table.**  Whatever form the document, its descriptions and
their element types have, in whatever order members stand, however tokens are spelled and with any white space
between them, the table is that of the descriptions, or the error is theirs.  A value in no such form is no
valid configuration, and so it is wherever an object has an undeclared or a repeated member. -/
theorem spellings_agree (text : String) (v : Value) (h : Token.Spells text.toList v.tokens) :
    (∀ specs, Document.Form v specs → ofText text = ofSpecs specs) ∧
    ((∀ specs, ¬ Document.Form v specs) →
      ∃ fault : Fault, ofText text = .error (.invalidConfig ("extension table: " ++ fault.detail))) ∧
    (Document.Crowded v →
      ∃ fault : Fault, ofText text = .error (.invalidConfig ("extension table: " ++ fault.detail))) :=
  ⟨fun _ hv => ofText_of_form h hv, ofText_of_not_form h,
    fun hc => ofText_of_not_form h fun _ hv => hv.not_crowded hc⟩

/-- the value of a sample document, with one description -/
def sampleValue : Value :=
  .array [.array [.array [.text "a", .number (.natural 64), .array [], .array [.object [("u32", .null)]]]]]

theorem form_sample : Document.Form sampleValue [⟨"a", 64, [], some [.u32]⟩] := by
  have helements : Spec.Listing (.array [.object [("u32", .null)]]) (some [.u32]) :=
    .listed (.cons (.member .u32) .nil)
  have hspec : Spec.Form (.array [.text "a", .number (.natural 64), .array [], .array [.object [("u32", .null)]]])
      ⟨"a", 64, [], some [.u32]⟩ := by
    refine @Record.Form.sequence _ _ _ _ [("name", _), ("width_bits", _), ("cpu_flags", _), ("element_types", _)] _
      (by decide) ⟨?_, fun name hname => ?_⟩
    · simp only [List.forall_mem_cons]
      exact ⟨rfl, rfl, rfl, helements, nofun⟩
    · obtain ⟨f, hf, rfl⟩ := Spec.declared_of_needs hname
      rcases Spec.mem_fields hf with rfl | rfl | rfl | rfl <;> decide
  refine @Record.Form.sequence _ _ _ _ [("extensions", _)] _ (by decide) ⟨?_, fun name hname => ?_⟩
  · exact List.forall_mem_singleton.mpr ⟨_, rfl, .cons hspec .nil⟩
  · exact List.mem_singleton.mpr hname

/-- Sequences for objects, a letter by its number, and a space are no matter, but a member too many is. -/
theorem spellings_agree_sample :
    ofText "[[[\"\\u0061\", 64,[],[\x7b\"u32\":null\x7d]]]]" = ofSpecs [⟨"a", 64, [], some [.u32]⟩] ∧
    ∃ fault : Fault, ofText "\x7b\"extensions\":[],\"x\":1\x7d" =
      .error (.invalidConfig ("extension table: " ++ fault.detail)) := by
  have hletter : Token.Spelling ['"', '\\', 'u', '0', '0', '6', '1', '"'] (.text "a") :=
    .text (.cons (.number (c := 'a') rfl) .nil)
  have hrest : Token.Spells _ (sampleValue.tokens.drop 5) := Token.spells_write (by decide +kernel)
  have hsample : Token.Spells "[[[\"\\u0061\", 64,[],[\x7b\"u32\":null\x7d]]]]".toList sampleValue.tokens := by
    have htext : "[[[\"\\u0061\", 64,[],[\x7b\"u32\":null\x7d]]]]".toList =
        '[' :: '[' :: '[' :: '"' :: '\\' :: 'u' :: '0' :: '0' :: '6' :: '1' :: '"' :: ',' :: ' ' ::
          (sampleValue.tokens.drop 5).flatMap Token.write := by decide +kernel
    have hcomma := Token.Spells.token (.mark (t := .comma) trivial) (.space (c := ' ') rfl hrest)
    have hopen := Token.Spelling.mark (t := .openBracket) trivial
    rw [htext]
    exact .token hopen (.token hopen (.token hopen (.token hletter hcomma)))
  let crowded : Value := .object [("extensions", .array []), ("x", .number (.natural 1))]
  have hcrowded : Token.Spells "\x7b\"extensions\":[],\"x\":1\x7d".toList crowded.tokens := by
    have htext : "\x7b\"extensions\":[],\"x\":1\x7d".toList = crowded.tokens.flatMap Token.write := by
      decide +kernel
    rw [htext]
    exact Token.spells_write (by decide +kernel)
  exact ⟨(spellings_agree _ _ hsample).1 _ form_sample,
    (spellings_agree _ _ hcrowded).2.2 (.own ⟨[_], "x", _, [], rfl, .inl (by decide)⟩)⟩

end Table

end Offload
