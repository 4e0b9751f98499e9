import Offload.Style

/-!
# Vector extensions

* `Spec`    the description of one extension: a name, the width of its registers, the processor
            flags it needs, and the element types it is for;
* `Fits`    a width suits an element type when it holds more than one whole lane;
* `Claim`   a width of an element type that an extension provides.

Where a description lists no element types, it is for every type its width suits.
-/

namespace Offload.Extension

structure Spec where
  name : String
  width : Nat
  /-- all of them must be present for the extension to be usable -/
  flags : List String
  /-- `none` stands for every type that the width suits, which is not the same as an empty list -/
  elements : Option (List Element)
  deriving DecidableEq, Repr

/-- whether a register of that width holds more than one whole lane -/
def Fits (e : Element) (width : Nat) : Prop := e.bits ∣ width ∧ e.bits < width

instance (e : Element) (width : Nat) : Decidable (Fits e width) :=
  inferInstanceAs (Decidable (_ ∧ _))

/-- Types that a width does not suit are passed over only where the description lists none. -/
def Spec.candidates (s : Spec) : List Element := s.elements.getD Element.all

/-- whether all flags of the extension are among the given ones -/
def Spec.usable (s : Spec) (flags : List String) : Bool := s.flags.all flags.contains

theorem Spec.usable_iff {s : Spec} {flags : List String} :
    s.usable flags = true ↔ ∀ f ∈ s.flags, f ∈ flags := by
  simp [usable]

/-- the extension of that tag provides registers of that width for that element type -/
structure Claim where
  element : Element
  width : Nat
  tag : String
  fits : Fits element width
  deriving DecidableEq

/-- the style a claim stands for -/
def Claim.style (c : Claim) : Style :=
  ⟨c.element, c.tag, c.width, Nat.lt_trans c.element.bits_pos c.fits.2, c.fits.1⟩

end Offload.Extension
