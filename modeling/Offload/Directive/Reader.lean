import Offload.Directive.Alphanumeric
import Offload.Directive.Pattern.Grammar
import Offload.Directive.Real
import Offload.Text.Ascii
import Offload.Text.Blank
import Offload.Text.Numeral
import Offload.Text.Pieces
import Offload.Trace.Filter

/-!
# A reader of filters

The reader that programs are run with.  What is said of a setup is said for any reader; this one takes the
place of a library that is used and not made here, and does what that was seen to do.

A filter is made of directives between commas.  A directive is a level, or a
target, a span between square brackets with a field between braces, and an equals sign with a level,
each of which may be left out.  A field has a name, or a name and a value with an equals sign between
them.

* `Reader.directive`  one directive.  Blanks around it are passed over in looking for its marks, but
                      not in cutting out its parts: these begin and end as many bytes into the whole
                      text as the marks are bytes into the text without blanks.  Behind a leading
                      blank every part is therefore out of place, and where that is inside a
                      character the reader crashes;
* `Directive.reader`  the reader: the directives of a text, or what is wrong with the first bad one, or
                      only the good ones.
-/

namespace Offload

/-- A level is the number of the least grave one that is shown; zero shows nothing. -/
structure Directive where
  target : Option String
  span : Option String
  /-- the name of a field and the value it must have -/
  field : Option (String × Option String)
  level : Nat
  deriving DecidableEq, Repr

namespace Directive

namespace Reader

inductive Fault where
  | badDirective
  | badLevel
  /-- the value of a field is no pattern -/
  | badValue (fault : Pattern.Fault)
  deriving DecidableEq, Repr

/-- what is said of a text that is no pattern -/
def patternMessage : Pattern.Fault → String
  | .malformed => "error building NFA"
  | .wideWords =>
    "unsupported regex feature for DFAs: cannot build DFAs for regexes with Unicode word " ++
      "boundaries; switch to ASCII word boundaries, or heuristically enable Unicode word " ++
      "boundaries or use a different regex engine"

def Fault.message : Fault → String
  | badDirective => "invalid filter directive"
  | badLevel => "error parsing level filter: expected one of \"off\", \"error\", \"warn\", " ++
      "\"info\", \"debug\", \"trace\", or a number 0-5"
  | badValue fault => s!"invalid field filter: {patternMessage fault}"

abbrev Reading (α : Type) : Type := Except (Failure Fault) α

def refuse {α : Type} (fault : Fault) : Reading α := .error (.error fault)

/-- the words for the levels from zero on -/
def words : List String := ["off", "error", "warn", "info", "debug", "trace"]

/-- the level that shows everything -/
def everything : Nat := 5

/-- a level by its number or its word, in letters of either case -/
def level? (s : String) : Option Nat :=
  match Text.Numeral.read s with
  | .ok n => if n < words.length then some n else none
  | .error _ => words.findIdx? (Text.Ascii.same s)

/-- the characters a directive may start with, apart from the bracket before a span -/
def isStart (c : Char) : Bool := c = '-' || c = ':' || c = '_' || Alphanumeric.char c

/-! ## parts by their places, counted in bytes -/

/-- a text in two parts, unless that would cut through a character or beyond the end -/
def split? : Nat → List Char → Option (List Char × List Char)
  | 0, cs => some ([], cs)
  | _ + 1, [] => none
  | n + 1, c :: cs =>
    if c.utf8Size ≤ n + 1 then (split? (n + 1 - c.utf8Size) cs).map fun r => (c :: r.1, r.2)
    else none

def cut (place : Nat) (text : List Char) : Reading (List Char × List Char) :=
  match split? place text with
  | some parts => .ok parts
  | none => .error (.crash (.insideCharacter place))

/-- the part of a text between two places -/
def part (text : List Char) (start stop : Nat) : Reading String := do
  let (front, _) ← cut stop text
  let (_, middle) ← cut start front
  return String.ofList middle

/-- the first of some marks: its place, itself and what follows it.  The text starts at `place`. -/
def mark? (marks : List Char) (place : Nat) : List Char → Option (Nat × Char × List Char)
  | [] => none
  | c :: cs => if marks.contains c then some (place, c, cs) else mark? marks (place + c.utf8Size) cs

/-! ## directives -/

/-- the level from a place on; none is written where everything is shown -/
def levelFrom (text : List Char) (place : Nat) : Reading Nat := do
  let (_, word) ← cut place text
  if word.isEmpty then return everything
  match level? (String.ofList word) with
  | some level => return level
  | none => refuse .badLevel

/-- A value is a number or a pattern. -/
def checkValue (s : String) : Reading Unit :=
  if Real.isNumeral s.toList then return ()
  else
    match Pattern.check s.toList with
    | none => return ()
    | some fault => refuse (.badValue fault)

/-- a field as it is written, with or without a value -/
def field (s : String) : Reading (String × Option String) :=
  match Text.Pieces.ofString '=' s with
  | name :: value :: _ => do
    checkValue value
    return (name, some value)
  | _ => return (s, none)

/-- what follows the bracket behind a span -/
def afterSpan (text : List Char) (d : Directive) (place : Nat) : List Char → Reading Directive
  | [] => return d
  | '=' :: _ => return { d with level := ← levelFrom text (place + 1) }
  | _ => refuse .badDirective

/-- The field is looked at before what follows it. -/
def fieldFrom (text : List Char) (d : Directive) (place : Nat) (rest : List Char) :
    Reading Directive :=
  match mark? ['\x7d'] place rest with
  | none => refuse .badDirective
  | some (stop, _, rest) => do
    let s ← part text place stop
    if s = "" then refuse .badDirective
    else
      let f ← field s
      match rest with
      | ']' :: rest => afterSpan text { d with field := some f } (stop + 2) rest
      | _ => refuse .badDirective

/-- A span may have no name; before a field that means any span. -/
def spanFrom (text : List Char) (d : Directive) (place : Nat) (rest : List Char) :
    Reading Directive :=
  match mark? [']', '\x7b'] place rest with
  | none => refuse .badDirective
  | some (stop, mark, rest) => do
    let s ← part text place stop
    if mark = ']' then afterSpan text { d with span := some s } (stop + 1) rest
    else fieldFrom text { d with span := if s = "" then none else some s } (stop + 1) rest

/-- a word that is no level is a target -/
def word (s : String) : Directive :=
  match level? s with
  | some level => ⟨none, none, none, level⟩
  | none => ⟨some s, none, none, everything⟩

def directive (text : List Char) : Reading Directive :=
  match Text.Blank.trim text with
  | [] => refuse .badDirective
  | '[' :: rest => spanFrom text ⟨none, none, none, everything⟩ 1 rest
  | c :: rest =>
    if !isStart c then refuse .badDirective
    else
      match mark? ['=', '['] 0 (c :: rest) with
      | none => return word (String.ofList text)
      | some (stop, mark, rest) => do
        let target ← part text 0 stop
        if mark = '[' then spanFrom text ⟨some target, none, none, everything⟩ (stop + 1) rest
        else return ⟨some target, none, none, ← levelFrom text (stop + 1)⟩

/-- Nothing between two commas is no directive. -/
def pieces (s : String) : List (List Char) := (Text.Pieces.cut ',' s.toList).filter (!·.isEmpty)

/-- the directives but for the bad ones -/
def usable : List (List Char) → Except Crash (List Directive)
  | [] => .ok []
  | p :: ps =>
    match directive p with
    | .ok d => (usable ps).map (d :: ·)
    | .error (.error _) => usable ps
    | .error (.crash c) => .error c

end Reader

def reader : Trace.Reader (List Directive) where
  strict s :=
    match (Reader.pieces s).mapM Reader.directive with
    | .ok ds => .ok ds
    | .error (.error fault) => .error (.error fault.message)
    | .error (.crash c) => .error (.crash c)
  lenient s := Reader.usable (Reader.pieces s)

end Directive

end Offload
