import Offload.Extension.Spec
import Offload.Size
import Offload.Text.Blank

/-!
# The extension table

Which extension provides which vector width of which element type.

* `Table`                  a list of descriptions with all that they claim, in the order in which
                           the claims were entered; `built` says that the descriptions were accepted;
* `Table.ofSpecs`          accepts a list of descriptions or gives the first offence in reading
                           order;
* `resolveWidth`, `resolve`  the style of an exact width or lane count, never a neighbouring one;
* `styles`                 the scalar style and then every vector style, from narrow to wide;
                           `widest`, `narrowest` and `parallelism` are read off it;
* `Table.restrict`         the table of the descriptions whose flags are all present;
* `Table.builtin`          the catalogue of a build for x86 processors.  Every kind of processor has a
                           catalogue of its own, and no other is here.

No width of an element type has two providers.
-/

namespace Offload.Extension

/-! ## entering claims -/

/-- the extension that provides a width of an element type -/
def provider? (claims : List Claim) (e : Element) (width : Nat) : Option Claim :=
  claims.find? fun c => c.element = e ∧ c.width = width

/-- One element type of a description.  `seen` holds the types of the description before it, and
`claims` all that was entered so far. -/
def enter (s : Spec) (seen : List Element) (e : Element) (claims : List Claim) :
    Except Error (List Claim) :=
  if e ∈ seen then
    .error (.invalidExtension s.name s!"element type {e.name} listed more than once")
  else if fits : Fits e s.width then
    match provider? claims e s.width with
    | some first => .error (.duplicateExtensionWidth e s.width first.tag s.name)
    | none => .ok (claims ++ [⟨e, s.width, s.name, fits⟩])
  else if s.elements.isSome then
    .error (.invalidExtension s.name s!"{s.width} bits is not a multi-lane width for {e.name}")
  else .ok claims

/-- element types of a description, one after the other -/
def enterAll (s : Spec) : List Element → List Element → List Claim → Except Error (List Claim)
  | _, [], claims => .ok claims
  | seen, e :: es, claims =>
    match enter s seen e claims with
    | .error err => .error err
    | .ok claims => enterAll s (e :: seen) es claims

/-- one description -/
def accept (claims : List Claim) (s : Spec) : Except Error (List Claim) :=
  if Text.Blank.text s.name then .error (.invalidExtension s.name "name must not be empty")
  else if s.name = Style.scalarTag then .error (.invalidExtension s.name "'scalar' is reserved")
  else if s.width = 0 then .error (.invalidExtension s.name "width_bits must be non-zero")
  else enterAll s [] s.candidates claims

/-- descriptions, one after the other -/
def acceptAll : List Spec → List Claim → Except Error (List Claim)
  | [], claims => .ok claims
  | s :: ss, claims =>
    match accept claims s with
    | .error err => .error err
    | .ok claims => acceptAll ss claims

end Offload.Extension

namespace Offload

/-- an accepted list of descriptions and what they claim -/
structure Table where
  specs : List Extension.Spec
  claims : List Extension.Claim
  built : Extension.acceptAll specs [] = .ok claims

namespace Table

open Extension

def ofSpecs (specs : List Spec) : Except Error Table :=
  match h : acceptAll specs [] with
  | .ok claims => .ok ⟨specs, claims, h⟩
  | .error err => .error err

theorem ofSpecs_eq_ok_iff {specs : List Spec} {t : Table} : ofSpecs specs = .ok t ↔ t.specs = specs := by
  unfold ofSpecs
  split
  · rename_i claims h
    rw [Except.ok.injEq]
    constructor
    · rintro rfl
      rfl
    · obtain ⟨specs', claims', h'⟩ := t
      rintro rfl
      rw [h] at h'
      cases h'
      rfl
  · rename_i err h
    constructor
    · simp
    · rintro rfl
      rw [t.built] at h
      cases h

theorem ofSpecs_eq_error_iff {specs : List Spec} {err : Error} :
    ofSpecs specs = .error err ↔ acceptAll specs [] = .error err := by
  unfold ofSpecs
  split
  · rename_i claims h
    simp [h]
  · rename_i err' h
    rw [h, Except.error.injEq, Except.error.injEq]

/-- no extension at all: every look-up but the scalar one fails -/
def scalarOnly : Table := ⟨[], [], rfl⟩

/-- the tags of the extensions -/
def names (t : Table) : List String := t.specs.map (·.name)

/-! ## looking up -/

/-- the style of an exact register width -/
def resolveWidth (t : Table) (e : Element) (width : Nat) : Except Error Style :=
  if width = e.bits then .ok (.scalar e)
  else
    match provider? t.claims e width with
    | some c => .ok c.style
    | none => .error (.unsupportedVectorLength e width)

/-- the style of an exact lane count -/
def resolve (t : Table) (e : Element) (lanes : Nat) : Except Error Style :=
  if lanes = 1 then .ok (.scalar e)
  else
    match Size.mul? e.bits lanes with
    | some width => t.resolveWidth e width
    | none => .error (.unsupportedVectorLength e Size.top)

/-- the vector styles of an element type, from narrow to wide -/
def vectorStyles (t : Table) (e : Element) : List Style :=
  ((t.claims.filter (·.element = e)).mergeSort (·.width ≤ ·.width)).map Claim.style

/-- all styles of an element type, from narrow to wide; the scalar one comes first -/
def styles (t : Table) (e : Element) : List Style := .scalar e :: t.vectorStyles e

/-- the scalar style, if there is no other -/
def widest (t : Table) (e : Element) : Style := (t.vectorStyles e).getLast?.getD (.scalar e)

/-- the narrowest vector style; the scalar style only if there is none -/
def narrowest (t : Table) (e : Element) : Style := (t.vectorStyles e).head?.getD (.scalar e)

/-- the lane counts of `styles` -/
def parallelism (t : Table) (e : Element) : List Nat := (t.styles e).map Style.lanes

/-! ## deriving tables -/

/-- keeps the extensions that are usable with the given flags -/
def restrict (t : Table) (flags : List String) : Except Error Table :=
  ofSpecs (t.specs.filter (·.usable flags))

/-- The vector units of x86 processors; a build for other processors lists theirs instead, or none. -/
def builtinSpecs : List Spec :=
  [⟨"sse", 128, ["sse4.1"], none⟩, ⟨"avx2", 256, ["avx2"], none⟩,
   ⟨"avx512", 512, ["avx512f"], none⟩]

def builtin : Except Error Table := ofSpecs builtinSpecs

end Table

end Offload
