import Offload.Text.Pieces
import Offload.Text.Utf8

/-!
# Files

A working directory and how paths are looked up in it.

* `Files`        what the working directory holds, each entry under its path;
* `Files.locate` follows a path component by component; a file cannot be entered;
* `Files.read`   the text of a file, or why there is none.

Around the working directory there are directories up to the root.  They can be reached by going up,
but nothing in them can be found by its name.
-/

namespace Offload

/-- an entry of a directory -/
inductive Files.Entry where
  | file (bytes : ByteArray)
  | directory

/-- the entries of the working directory, under their paths -/
structure Files where
  entries : List (String × Files.Entry)

namespace Files

/-- why a path cannot be read -/
inductive Fault where
  | notFound
  | notDirectory
  | isDirectory
  | nameTooLong
  | zeroByte
  | notText
  deriving DecidableEq, Repr

def Fault.message : Fault → String
  | notFound => "No such file or directory (os error 2)"
  | notDirectory => "Not a directory (os error 20)"
  | isDirectory => "Is a directory (os error 21)"
  | nameTooLong => "File name too long (os error 36)"
  | zeroByte => "file name contained an unexpected NUL byte"
  | notText => "stream did not contain valid UTF-8"

/-- the greatest number of bytes in the name of an entry -/
def nameLimit : Nat := 255

/-- the first number of bytes that is too many for a path -/
def pathLimit : Nat := 4096

/-- follows components from a directory around the working directory; above the root is the root -/
def walkAround : List String → Except Fault Entry
  | [] => .ok .directory
  | c :: cs =>
    if c = "" ∨ c = "." ∨ c = ".." then walkAround cs
    else if nameLimit < c.utf8ByteSize then .error .nameTooLong
    else .error .notFound

/-- Follows components from an entry, whose path is given from the last component to the first. -/
def walk (files : Files) : List String → Entry → List String → Except Fault Entry
  | _, here, [] => .ok here
  | _, .file _, _ :: _ => .error .notDirectory
  | above, .directory, c :: cs =>
    if c = "" ∨ c = "." then files.walk above .directory cs
    else if c = ".." then
      match above with
      | [] => walkAround cs
      | _ :: up => files.walk up .directory cs
    else if nameLimit < c.utf8ByteSize then .error .nameTooLong
    else
      match files.entries.lookup ("/".intercalate (c :: above).reverse) with
      | none => .error .notFound
      | some entry => files.walk (c :: above) entry cs

/-- the entry at a path -/
def locate (files : Files) (path : String) : Except Fault Entry :=
  if path.toList.contains '\x00' then .error .zeroByte
  else if pathLimit ≤ path.utf8ByteSize then .error .nameTooLong
  else if path = "" then .error .notFound
  else if path.toList.head? = some '/' then walkAround (Text.Pieces.ofString '/' path)
  else files.walk [] .directory (Text.Pieces.ofString '/' path)

def read (files : Files) (path : String) : Except Fault String :=
  match files.locate path with
  | .error e => .error e
  | .ok .directory => .error .isDirectory
  | .ok (.file bytes) =>
    match Text.Utf8.decode? bytes with
    | some s => .ok s
    | none => .error .notText

end Files

end Offload
