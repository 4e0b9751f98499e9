/-!
# Text as bytes

* `Utf8.decode?`  the text that some bytes encode; `none` if they encode no text (`decode?_toUTF8`).
-/

namespace Offload.Text.Utf8

def decode? (bytes : ByteArray) : Option String := String.fromUTF8? bytes

theorem decode?_toUTF8 (s : String) : decode? s.toUTF8 = some s := by
  simp only [decode?, String.fromUTF8?, String.toUTF8_eq_toByteArray, Option.dite_none_right_eq_some,
    Option.some.injEq]
  exact ⟨by simp [s.isValidUTF8], rfl⟩

end Offload.Text.Utf8
