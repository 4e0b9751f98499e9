import Offload.Error

/-!
# Processing styles

A style tells a kernel how to walk its data: the element type, the tag of the vector extension that
is used, and how many bits one register of it holds.

* `Style`              the width is a positive multiple of the lane width (`lanes_pos`,
                       `lanes_mul_bits`);
* `Style.scalar`       one lane, as wide as the element;
* `Style.accelerator`  the synthesized logic of the accelerator, at any width that holds whole lanes;
* `Style.ofWidth`      the general case, refused exactly when the width holds no whole lanes
                       (`ofWidth_eq_ok_iff`).
-/

namespace Offload

/-- how a kernel treats its data -/
structure Style where
  element : Element
  tag : String
  width : Nat
  width_pos : 0 < width
  bits_dvd : element.bits ∣ width
  deriving DecidableEq, Repr

namespace Style

/-- the tag of scalar styles; no extension may take it -/
def scalarTag : String := "scalar"

/-- the tag of the accelerator's synthesized logic -/
def logicTag : String := "fpga_rtl"

def scalar (e : Element) : Style := ⟨e, scalarTag, e.bits, e.bits_pos, Nat.dvd_refl _⟩

def ofWidth (e : Element) (tag : String) (width : Nat) : Except Error Style :=
  if h : 0 < width ∧ e.bits ∣ width then .ok ⟨e, tag, width, h.1, h.2⟩
  else .error (.unsupportedVectorLength e width)

def accelerator (e : Element) (width : Nat) : Except Error Style := ofWidth e logicTag width

theorem ofWidth_eq_ok_iff {e : Element} {tag : String} {width : Nat} {s : Style} :
    ofWidth e tag width = .ok s ↔ s.element = e ∧ s.tag = tag ∧ s.width = width := by
  unfold ofWidth
  split
  · rw [Except.ok.injEq]
    constructor
    · rintro rfl
      exact ⟨rfl, rfl, rfl⟩
    · obtain ⟨e', tag', width', _, _⟩ := s
      rintro ⟨rfl, rfl, rfl⟩
      rfl
  · rename_i h
    constructor
    · simp
    · rintro ⟨rfl, _, rfl⟩
      exact absurd ⟨s.width_pos, s.bits_dvd⟩ h

/-- A width is refused exactly when it holds no whole lanes. -/
theorem exists_ofWidth_iff {e : Element} {tag : String} {width : Nat} :
    (∃ s, ofWidth e tag width = .ok s) ↔ 0 < width ∧ e.bits ∣ width := by
  constructor
  · rintro ⟨s, hs⟩
    obtain ⟨rfl, -, rfl⟩ := ofWidth_eq_ok_iff.mp hs
    exact ⟨s.width_pos, s.bits_dvd⟩
  · intro h
    exact ⟨_, dif_pos h⟩

theorem ofWidth_eq_error_iff {e : Element} {tag : String} {width : Nat} {err : Error} :
    ofWidth e tag width = .error err ↔
      err = .unsupportedVectorLength e width ∧ (width = 0 ∨ ¬ e.bits ∣ width) := by
  unfold ofWidth
  split
  · rename_i h
    simp [Nat.ne_of_gt h.1, h.2]
  · rename_i h
    rw [Except.error.injEq, eq_comm]
    refine ⟨fun he => ⟨he, ?_⟩, fun he => he.1⟩
    by_cases hz : width = 0
    · exact .inl hz
    · exact .inr fun hd => h ⟨Nat.pos_of_ne_zero hz, hd⟩

/-- lanes per register -/
def lanes (s : Style) : Nat := s.width / s.element.bits

theorem lanes_mul_bits (s : Style) : s.lanes * s.element.bits = s.width :=
  Nat.div_mul_cancel s.bits_dvd

theorem lanes_pos (s : Style) : 0 < s.lanes :=
  Nat.div_pos (Nat.le_of_dvd s.width_pos s.bits_dvd) s.element.bits_pos

theorem lanes_scalar (e : Element) : (scalar e).lanes = 1 := Nat.div_self e.bits_pos

/-- A style is scalar by its tag. -/
def isScalar (s : Style) : Bool := s.tag == scalarTag

def display (s : Style) : String := s!"simd<{s.element.name}, {s.tag}, {s.width}>"

end Style

end Offload
