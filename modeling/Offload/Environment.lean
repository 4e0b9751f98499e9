import Offload.Text.Blank
import Offload.Text.Utf8

/-!
# Environment variables

* `Environment`           the variables that are set, each with the bytes of its value;
* `Environment.text?`     the value of a variable as text.  One that is no text counts as unset;
* `Environment.nonblank?` the same, where a blank text counts as unset too.
-/

namespace Offload

structure Environment where
  get : String → Option ByteArray

namespace Environment

def empty : Environment := ⟨fun _ => none⟩

def set (env : Environment) (name : String) (value : ByteArray) : Environment :=
  ⟨fun n => if n = name then some value else env.get n⟩

def unset (env : Environment) (name : String) : Environment :=
  ⟨fun n => if n = name then none else env.get n⟩

def text? (env : Environment) (name : String) : Option String :=
  env.get name >>= Text.Utf8.decode?

def nonblank? (env : Environment) (name : String) : Option String :=
  (env.text? name).filter fun s => !Text.Blank.text s

theorem text?_set (env : Environment) (name : String) (s : String) (other : String) :
    (env.set name s.toUTF8).text? other = if other = name then some s else env.text? other := by
  by_cases h : other = name
  · subst h
    rw [if_pos rfl, ← Text.Utf8.decode?_toUTF8 s]
    simp [text?, set]
  · simp [text?, set, h]

theorem text?_unset (env : Environment) (name other : String) :
    (env.unset name).text? other = if other = name then none else env.text? other := by
  by_cases h : other = name <;> simp [text?, unset, h]

end Environment

end Offload
