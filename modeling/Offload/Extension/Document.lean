import Offload.Element.Json
import Offload.Extension.Table

/-!
# Extension tables in JSON

A table is written as a document: an object with the one field `extensions`, a list of records with
the fields `name`, `width_bits`, `cpu_flags` and `element_types`.

* `Document.parse`    the descriptions in a document; every record may also be written as a sequence,
                      and the last two fields of a description may be left out;
* `Document.render`   a document without spaces; absent element types are left out;
* `Table.ofText`      the table of a document.
-/

namespace Offload.Extension

open Json

namespace Spec

/-- the fields of a description that were read so far -/
structure Draft where
  name : Option String
  width : Option Nat
  flags : Option (List String)
  elements : Option (Option (List Element))

def nameField : Record.Field Draft where
  name := "name"
  required := true
  present d := d.name.isSome
  read d ts :=
    match Reader.text "a string" ts with
    | .error e => .error e
    | .ok (a, rest) => .ok ({ d with name := some a }, rest)

def widthField : Record.Field Draft where
  name := "width_bits"
  required := true
  present d := d.width.isSome
  read d ts :=
    match Reader.size "usize" ts with
    | .error e => .error e
    | .ok (a, rest) => .ok ({ d with width := some a }, rest)

def flagsField : Record.Field Draft where
  name := "cpu_flags"
  required := false
  present d := d.flags.isSome
  read d ts :=
    match Reader.list "a sequence" (Reader.text "a string") ts with
    | .error e => .error e
    | .ok (a, rest) => .ok ({ d with flags := some a }, rest)

def elementsField : Record.Field Draft where
  name := "element_types"
  required := false
  present d := d.elements.isSome
  read d ts :=
    match Reader.optional (Reader.list "a sequence" Element.read) ts with
    | .error e => .error e
    | .ok (a, rest) => .ok ({ d with elements := some a }, rest)

def Draft.finish (d : Draft) : Option Spec :=
  match d.name, d.width with
  | some name, some width => some ⟨name, width, d.flags.getD [], d.elements.getD none⟩
  | _, _ => none

def record : Record Draft Spec where
  title := "struct ExtensionSpec"
  fields := [nameField, widthField, flagsField, elementsField]
  blank := ⟨none, none, none, none⟩
  finish := Draft.finish

end Spec

namespace Document

def extensionsField : Record.Field (Option (List Spec)) where
  name := "extensions"
  required := true
  present := Option.isSome
  read _ ts :=
    match Reader.list "a sequence" Spec.record.read ts with
    | .error e => .error e
    | .ok (a, rest) => .ok (some a, rest)

def record : Record (Option (List Spec)) (List Spec) where
  title := "struct TableDocument"
  fields := [extensionsField]
  blank := none
  finish := id

def parse (s : String) : Except Fault (List Spec) :=
  Reader.whole record.read (Token.scan s.toList)

/-! ## writing -/

/-- a sequence of values that are one token each -/
def sequence (ts : List Token) : List Token :=
  .openBracket :: ts.intersperse .comma ++ [.closeBracket]

def specTokens (s : Spec) : List Token :=
  [.openBrace, .text "name", .colon, .text s.name, .comma,
   .text "width_bits", .colon, .number (.natural s.width), .comma,
   .text "cpu_flags", .colon] ++ sequence (s.flags.map .text) ++
  (match s.elements with
   | none => []
   | some es => .comma :: .text "element_types" :: .colon :: sequence (es.map Element.token)) ++
  [.closeBrace]

def tokens (specs : List Spec) : List Token :=
  [.openBrace, .text "extensions", .colon, .openBracket] ++
  [.comma].intercalate (specs.map specTokens) ++ [.closeBracket, .closeBrace]

def render (specs : List Spec) : String := Token.writeAll (tokens specs)

end Document

end Offload.Extension

namespace Offload.Table

open Extension

/-- the text of a table, from which the same table can be read -/
def document (t : Table) : String := Document.render t.specs

def ofText (s : String) : Except Error Table :=
  match Document.parse s with
  | .ok specs => ofSpecs specs
  | .error fault => .error (.invalidConfig ("extension table: " ++ fault.detail))

end Offload.Table
