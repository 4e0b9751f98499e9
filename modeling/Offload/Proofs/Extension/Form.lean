import Offload.Extension.Document
import Offload.Proofs.Json.Record

/-!
# The forms of extension tables in JSON

* `Element.Form`, `Spec.Form`, `Document.Form`  how element types, descriptions and documents are written.  Each is
                        read in all its forms and in no other (`exact_read`);
* `Spec.Tells`, `Spec.Needs`  what may stand under the names of a description, and what may not be left out;
* `Spec.lawful`         its fields fill a draft one by one, in any order;
* `Document.parse_eq_ok_iff`  a text that holds a value is a document where the value has its form.
-/

namespace Offload

open Json Reader

/-! ## element types -/

namespace Element

/-- An element type is written as its name, or as the only member of an object. -/
inductive Form : Value → Element → Prop
  | name (e : Element) : Form (.text e.name) e
  | member (e : Element) : Form (.object [(e.name, .null)]) e

theorem variant_eq_ok_iff {s : String} {e : Element} : variant s = .ok e ↔ s = e.name := by
  constructor
  · intro h
    unfold variant at h
    split at h
    · rename_i he
      cases h
      exact (name_of_ofName? he).symm
    · cases h
  · rintro rfl
    exact variant_name e

/-- The member ends its object. -/
theorem readMember_eq_ok_iff (e f : Element) (v : Value) (ms : List (String × Value)) (rest rest' : List Token) :
    readMember e (.colon :: (v.tokens ++ (Value.memberTokens ms ++ rest))) = .ok (f, rest') ↔
      (v = .null ∧ ms = [] ∧ e = f) ∧ rest' = rest := by
  unfold readMember
  dsimp only
  constructor
  · intro h
    split at h
    · cases h
    · rename_i hnull
      obtain ⟨hv, hrest⟩ := (exact_null "unit").of_ok hnull
      cases h
      cases ms with
      | nil =>
        cases hrest
        exact ⟨⟨hv, rfl, rfl⟩, rfl⟩
      | cons m ms => cases hrest
    · cases h
  · rintro ⟨⟨rfl, rfl, rfl⟩, rfl⟩
    rfl

theorem read_text (s : String) (rest : List Token) : read (.text s :: rest) = (variant s).map (·, rest) := by
  rw [read]
  cases variant s <;> rfl

theorem read_object (s : String) (rest : List Token) :
    read (.openBrace :: .text s :: rest) = (variant s).bind (readMember · rest) := by
  rw [read]
  cases variant s <;> rfl

/-- Element types are read in both forms and in no other. -/
theorem exact_read : Exact read Form := by
  intro v rest e rest'
  match v with
  | .null | .boolean _ | .number _ | .array [] | .array (_ :: _) | .object [] => exact ⟨nofun, nofun⟩
  | .text s =>
    rw [Value.tokens, List.singleton_append, read_text]
    constructor
    · intro h
      cases hs : variant s with
      | error err =>
        rw [hs] at h
        cases h
      | ok f =>
        rw [hs] at h
        cases h
        obtain rfl := variant_eq_ok_iff.mp hs
        exact ⟨.name e, rfl⟩
    · rintro ⟨hform, rfl⟩
      cases hform
      rw [variant_name]
      rfl
  | .object ((s, w) :: ms) =>
    have htokens : (Value.object ((s, w) :: ms)).tokens ++ rest =
        .openBrace :: .text s :: .colon :: (w.tokens ++ (Value.memberTokens ms ++ rest)) := by
      rw [Value.tokens, List.append_assoc]
      rfl
    rw [htokens, read_object]
    constructor
    · intro h
      cases hs : variant s with
      | error err =>
        rw [hs] at h
        cases h
      | ok f =>
        rw [hs] at h
        obtain rfl := variant_eq_ok_iff.mp hs
        obtain ⟨⟨rfl, rfl, rfl⟩, hrest⟩ := (readMember_eq_ok_iff ..).mp h
        exact ⟨.member _, hrest⟩
    · rintro ⟨hform, rfl⟩
      cases hform
      rw [variant_name]
      exact (readMember_eq_ok_iff ..).mpr ⟨⟨rfl, rfl, rfl⟩, rfl⟩

end Element

namespace Extension

/-! ## descriptions -/

namespace Spec

/-- Element types are a list, or `null` where there are none. -/
inductive Listing : Value → Option (List Element) → Prop
  | absent : Listing .null none
  | listed {vs : List Value} {es : List Element} :
      List.Forall₂ Element.Form vs es → Listing (.array vs) (some es)

/-- what may stand under a name in a description -/
def Tells (s : Spec) : String → Value → Prop
  | "name", v => v = .text s.name
  | "width_bits", v => v = .number (.natural s.width)
  | "cpu_flags", v => v = .array (s.flags.map .text)
  | "element_types", v => Listing v s.elements
  | _, _ => False

/-- what may not be left out -/
def Needs (s : Spec) : String → Prop
  | "name" | "width_bits" => True
  | "cpu_flags" => s.flags ≠ []
  | "element_types" => s.elements ≠ none
  | _ => False

/-- the names of the fields of a description, in their order -/
def fieldNames : List String := ["name", "width_bits", "cpu_flags", "element_types"]

/-- how a description is written -/
def Form : Value → Spec → Prop := Record.Form fieldNames Tells Needs

theorem exact_listing : Exact (optional (list "a sequence" Element.read)) Listing := by
  refine Element.exact_read.list.optional.congr fun v o => ⟨?_, fun h => ?_⟩
  · rintro (⟨rfl, rfl⟩ | ⟨_, -, rfl, vs, rfl, hes⟩)
    · exact .absent
    · exact .listed hes
  · cases h with
    | absent => exact .inl ⟨rfl, rfl⟩
    | listed hes => exact .inr ⟨_, nofun, rfl, _, rfl, hes⟩

theorem exact_flags : Exact (list "a sequence" (text "a string")) fun v flags => v = .array (flags.map .text) := by
  refine (exact_text "a string").list.congr fun v flags => ?_
  simp only [← List.forall₂_map_right_iff, List.forall₂_eq_eq_eq, exists_eq_right]

/-! ### drafts -/

/-- a draft with a value under a name -/
def Puts : String → Draft → Value → Draft → Prop
  | "name", d, v, e => ∃ a, v = .text a ∧ e = { d with name := some a }
  | "width_bits", d, v, e => ∃ n, v = .number (.natural n) ∧ e = { d with width := some n }
  | "cpu_flags", d, v, e => ∃ flags : List String, v = .array (flags.map .text) ∧ e = { d with flags := some flags }
  | "element_types", d, v, e => ∃ es, Listing v es ∧ e = { d with elements := some es }
  | _, _, _, _ => False

/-- What the draft holds is so. -/
structure Draft.Agrees (d : Draft) (s : Spec) : Prop where
  name : ∀ a ∈ d.name, a = s.name
  width : ∀ n ∈ d.width, n = s.width
  flags : ∀ flags ∈ d.flags, flags = s.flags
  elements : ∀ es ∈ d.elements, es = s.elements

theorem nameField_stores : nameField.Stores (text "a string") fun d a => { d with name := some a } := by
  intro d ts
  simp only [nameField]
  cases text "a string" ts <;> rfl

theorem widthField_stores : widthField.Stores (size "usize") fun d a => { d with width := some a } := by
  intro d ts
  simp only [widthField]
  cases size "usize" ts <;> rfl

theorem flagsField_stores : flagsField.Stores (list "a sequence" (text "a string"))
    fun d a => { d with flags := some a } := by
  intro d ts
  simp only [flagsField]
  cases list "a sequence" (text "a string") ts <;> rfl

theorem elementsField_stores : elementsField.Stores (optional (list "a sequence" Element.read))
    fun d a => { d with elements := some a } := by
  intro d ts
  simp only [elementsField]
  cases optional (list "a sequence" Element.read) ts <;> rfl

theorem mem_fields {f : Record.Field Draft} (hf : f ∈ record.fields) :
    f = nameField ∨ f = widthField ∨ f = flagsField ∨ f = elementsField := by
  simpa [record] using hf

theorem exact_field {f : Record.Field Draft} (hf : f ∈ record.fields) (d : Draft) :
    Exact (f.read d) (Puts f.name d) := by
  rcases mem_fields hf with rfl | rfl | rfl | rfl
  · exact nameField_stores.exact (exact_text _) d
  · exact widthField_stores.exact (exact_size _) d
  · exact flagsField_stores.exact exact_flags d
  · exact elementsField_stores.exact exact_listing d

theorem present_of_puts {f : Record.Field Draft} (hf : f ∈ record.fields) {d e : Draft} {v : Value}
    (h : Puts f.name d v e) {g : Record.Field Draft} (hg : g ∈ record.fields) :
    g.present e = true ↔ g.present d = true ∨ g.name = f.name := by
  rcases mem_fields hf with rfl | rfl | rfl | rfl <;> obtain ⟨_, -, rfl⟩ := h <;>
    rcases mem_fields hg with rfl | rfl | rfl | rfl <;>
      simp [nameField, widthField, flagsField, elementsField]

theorem agrees_of_puts {f : Record.Field Draft} (hf : f ∈ record.fields) {d e : Draft} {v : Value}
    (habsent : f.present d = false) (h : Puts f.name d v e) (s : Spec) :
    e.Agrees s ↔ d.Agrees s ∧ Tells s f.name v := by
  obtain ⟨name, width, flags, elements⟩ := d
  -- the field is blank, so that the draft did not say anything about it
  rcases mem_fields hf with rfl | rfl | rfl | rfl
  · obtain ⟨a, rfl, rfl⟩ := h
    obtain rfl : name = none := Option.isNone_iff_eq_none.mp (Option.isSome_eq_false_iff.mp habsent)
    constructor
    · intro h
      have ht : Value.text a = .text s.name := by rw [h.name a rfl]
      exact ⟨⟨nofun, h.width, h.flags, h.elements⟩, ht⟩
    · rintro ⟨h, ht⟩
      exact ⟨fun b hb => Option.some.inj hb ▸ Value.text.inj ht, h.width, h.flags, h.elements⟩
  · obtain ⟨n, rfl, rfl⟩ := h
    obtain rfl : width = none := Option.isNone_iff_eq_none.mp (Option.isSome_eq_false_iff.mp habsent)
    constructor
    · intro h
      have ht : Value.number (.natural n) = .number (.natural s.width) := by rw [h.width n rfl]
      exact ⟨⟨h.name, nofun, h.flags, h.elements⟩, ht⟩
    · rintro ⟨h, ht⟩
      have hn : n = s.width := Number.natural.inj (Value.number.inj ht)
      exact ⟨h.name, fun m hm => Option.some.inj hm ▸ hn, h.flags, h.elements⟩
  · obtain ⟨fs, hv, rfl⟩ := h
    obtain rfl : flags = none := Option.isNone_iff_eq_none.mp (Option.isSome_eq_false_iff.mp habsent)
    constructor
    · intro h
      have ht : v = .array (s.flags.map .text) := h.flags fs rfl ▸ hv
      exact ⟨⟨h.name, h.width, nofun, h.elements⟩, ht⟩
    · rintro ⟨h, ht⟩
      have hfs : fs = s.flags := exact_flags.unique hv ht
      exact ⟨h.name, h.width, fun gs hgs => Option.some.inj hgs ▸ hfs, h.elements⟩
  · obtain ⟨es, hv, rfl⟩ := h
    obtain rfl : elements = none := Option.isNone_iff_eq_none.mp (Option.isSome_eq_false_iff.mp habsent)
    constructor
    · intro h
      have ht : Listing v s.elements := h.elements es rfl ▸ hv
      exact ⟨⟨h.name, h.width, h.flags, nofun⟩, ht⟩
    · rintro ⟨h, ht⟩
      have hes : es = s.elements := exact_listing.unique hv ht
      exact ⟨h.name, h.width, h.flags, fun fs hfs => Option.some.inj hfs ▸ hes⟩

theorem puts_of_tells {s : Spec} {name : String} {v : Value} (h : Tells s name v) :
    ∃ f ∈ record.fields, f.name = name ∧ ∀ d, ∃ e, Puts name d v e := by
  unfold Tells at h
  split at h
  · exact ⟨nameField, by simp [record], rfl, fun d => ⟨_, _, h, rfl⟩⟩
  · exact ⟨widthField, by simp [record], rfl, fun d => ⟨_, _, h, rfl⟩⟩
  · exact ⟨flagsField, by simp [record], rfl, fun d => ⟨_, _, h, rfl⟩⟩
  · exact ⟨elementsField, by simp [record], rfl, fun d => ⟨_, _, h, rfl⟩⟩
  · exact h.elim

theorem declared_of_needs {s : Spec} {name : String} (h : Needs s name) :
    ∃ f ∈ record.fields, f.name = name := by
  unfold Needs at h
  split at h
  · exact ⟨nameField, by simp [record], rfl⟩
  · exact ⟨widthField, by simp [record], rfl⟩
  · exact ⟨flagsField, by simp [record], rfl⟩
  · exact ⟨elementsField, by simp [record], rfl⟩
  · exact h.elim

/-- A default stands for what may be left out. -/
theorem getD_eq_iff {α : Type} (o : Option α) (a b : α) :
    o.getD a = b ↔ (∀ c ∈ o, c = b) ∧ (b ≠ a → o.isSome = true) := by
  cases o with
  | none => simp [eq_comm]
  | some c => simp

theorem close_eq_ok_iff (d : Draft) (s : Spec) : record.close d = .ok s ↔
    d.Agrees s ∧ ∀ f ∈ record.fields, Needs s f.name → f.present d = true := by
  obtain ⟨name, width, flags, elements⟩ := d
  have hfields : (∀ f ∈ record.fields, Needs s f.name → f.present ⟨name, width, flags, elements⟩ = true) ↔
      name.isSome ∧ width.isSome ∧ (s.flags ≠ [] → flags.isSome) ∧ (s.elements ≠ none → elements.isSome) := by
    simp [record, nameField, widthField, flagsField, elementsField, Needs]
  rw [hfields]
  cases name with
  | none => exact ⟨nofun, nofun⟩
  | some name =>
    cases width with
    | none => exact ⟨nofun, nofun⟩
    | some width =>
      have hclose : record.close ⟨some name, some width, flags, elements⟩ =
        .ok ⟨name, width, flags.getD [], elements.getD none⟩ := rfl
      rw [hclose, Except.ok.injEq]
      constructor
      · rintro rfl
        obtain ⟨hflags, hfneed⟩ := (getD_eq_iff flags [] _).mp rfl
        obtain ⟨helements, heneed⟩ := (getD_eq_iff elements none _).mp rfl
        exact ⟨⟨fun a ha => (Option.some.inj ha).symm, fun n hn => (Option.some.inj hn).symm, hflags, helements⟩,
          rfl, rfl, hfneed, heneed⟩
      · rintro ⟨h, -, -, hfneed, heneed⟩
        rw [(getD_eq_iff ..).mpr ⟨h.flags, hfneed⟩, (getD_eq_iff ..).mpr ⟨h.elements, heneed⟩,
          h.name name rfl, h.width width rfl]

theorem lawful : record.Lawful Puts Draft.Agrees Tells Needs where
  nodup := by decide
  exact _ hf d := exact_field hf d
  blank f hf := by rcases mem_fields hf with rfl | rfl | rfl | rfl <;> rfl
  present _ hf _ _ _ h _ hg := present_of_puts hf h hg
  agrees_blank _ := ⟨nofun, nofun, nofun, nofun⟩
  agrees_puts _ hf _ _ _ habsent h s := agrees_of_puts hf habsent h s
  puts_of_tells h := puts_of_tells h
  declared h := declared_of_needs h
  required f hf hreq s := by
    rcases mem_fields hf with rfl | rfl | rfl | rfl
    · trivial
    · trivial
    · cases hreq
    · cases hreq
  close d s := close_eq_ok_iff d s

/-- Descriptions are read in all their forms and in no other. -/
theorem exact_read : Exact record.read Form := lawful.exact_read

end Spec

/-! ## documents -/

namespace Document

/-- what may stand under a name in a document -/
def Tells (specs : List Spec) : String → Value → Prop
  | "extensions", v => ∃ vs, v = .array vs ∧ List.Forall₂ Spec.Form vs specs
  | _, _ => False

/-- what may not be left out -/
def Needs (_ : List Spec) (name : String) : Prop := name = "extensions"

def fieldNames : List String := ["extensions"]

/-- how a document is written -/
def Form : Value → List Spec → Prop := Record.Form fieldNames Tells Needs

theorem extensionsField_stores :
    extensionsField.Stores (Reader.list "a sequence" Spec.record.read) fun _ a => some a := by
  intro d ts
  simp only [extensionsField]
  cases Reader.list "a sequence" Spec.record.read ts <;> rfl

theorem exact_extensions : Exact (Reader.list "a sequence" Spec.record.read) fun v specs =>
    ∃ vs, v = .array vs ∧ List.Forall₂ Spec.Form vs specs := Spec.exact_read.list

/-- a draft with a value under a name -/
def Puts : String → Option (List Spec) → Value → Option (List Spec) → Prop
  | "extensions", _, v, e => ∃ specs, (∃ vs, v = .array vs ∧ List.Forall₂ Spec.Form vs specs) ∧ e = some specs
  | _, _, _, _ => False

theorem lawful : record.Lawful Puts (fun d specs => ∀ listed ∈ d, listed = specs) Tells Needs where
  nodup := by decide
  exact f hf d := by
    obtain rfl := List.mem_singleton.mp hf
    exact extensionsField_stores.exact exact_extensions d
  blank f hf := by
    obtain rfl := List.mem_singleton.mp hf
    rfl
  present f hf d v e h g hg := by
    obtain rfl := List.mem_singleton.mp hf
    obtain rfl := List.mem_singleton.mp hg
    obtain ⟨specs, -, rfl⟩ := h
    exact ⟨fun _ => .inr rfl, fun _ => rfl⟩
  agrees_blank _ := nofun
  agrees_puts f hf d v e habsent h specs := by
    obtain rfl := List.mem_singleton.mp hf
    obtain ⟨listed, hv, rfl⟩ := h
    obtain rfl : d = none := Option.isNone_iff_eq_none.mp (Option.isSome_eq_false_iff.mp habsent)
    constructor
    · intro h
      obtain rfl := h listed rfl
      exact ⟨nofun, hv⟩
    · rintro ⟨-, ht⟩ other hother
      obtain rfl := Option.some.inj hother
      exact exact_extensions.unique hv ht
  puts_of_tells {specs name v} h := by
    unfold Tells at h
    split at h
    · exact ⟨extensionsField, List.mem_singleton.mpr rfl, rfl, fun d => ⟨_, _, h, rfl⟩⟩
    · exact h.elim
  declared h := ⟨extensionsField, List.mem_singleton.mpr rfl, h.symm⟩
  required f hf _ _ := by
    obtain rfl := List.mem_singleton.mp hf
    rfl
  close d specs := by
    have hfields : (∀ f ∈ record.fields, Needs specs f.name → f.present d = true) ↔ d.isSome = true := by
      simp [record, extensionsField, Needs]
    rw [hfields]
    cases d with
    | none => exact ⟨nofun, nofun⟩
    | some listed =>
      have hclose : record.close (some listed) = .ok listed := rfl
      rw [hclose, Except.ok.injEq]
      exact ⟨fun h => ⟨fun _ hl => (Option.some.inj hl).symm.trans h, rfl⟩, fun h => h.1 listed rfl⟩

/-- Documents are read in all their forms and in no other. -/
theorem exact_read : Exact record.read Form := lawful.exact_read

/-- A text that holds a value is a document where the value has its form. -/
theorem parse_eq_ok_iff {text : String} {v : Value} (h : Token.Spells text.toList v.tokens) (specs : List Spec) :
    parse text = .ok specs ↔ Form v specs := by
  rw [parse, v.scan_of_spells h]
  exact exact_read.whole v specs

end Document

end Extension

end Offload
