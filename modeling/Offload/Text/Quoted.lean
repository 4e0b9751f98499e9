import Offload.Text.Hex
import Offload.Text.Invisible

/-!
# Quoted text

Text as it is shown inside messages: between double quotes, with everything escaped that would
blur where it ends or what it holds.

* `Quoted.text`   a text; double quotes and backslashes are escaped, characters that do not print
                  are written by number;
* `Quoted.texts`  a list of texts between square brackets.
-/

namespace Offload.Text.Quoted

/-- the number of a character in lower-case hexadecimal between braces -/
def number (c : Char) : List Char := "\\u\x7b".toList ++ Hex.digits c.toNat ++ ['\x7d']

def encodeChar (c : Char) : List Char :=
  if c = '\x00' then ['\\', '0']
  else if c = '\t' then ['\\', 't']
  else if c = '\n' then ['\\', 'n']
  else if c = '\r' then ['\\', 'r']
  else if c = '"' ∨ c = '\\' then ['\\', c]
  else if Invisible.char c then number c
  else [c]

def encode (cs : List Char) : List Char := cs.flatMap encodeChar

def text (s : String) : String := String.ofList ('"' :: encode s.toList ++ ['"'])

def texts (ss : List String) : String := "[" ++ ", ".intercalate (ss.map text) ++ "]"

end Offload.Text.Quoted
