import Offload.Directive.Alphanumeric
import Offload.Directive.Pattern.Class

/-!
# What is a pattern

A pattern is made of atoms and classes, which can be repeated, of groups between round brackets, which
can have a name, and of alternatives.

* `Branch`          what is read so far of one alternative;
* `Group`           a group that is still open, and the whole pattern as the outermost;
* `Scan`            what is read so far of a pattern;
* `Pattern.check`   what is wrong with a text as a pattern, if anything is.

Where a word begins and ends among the characters of Unicode cannot be found, though it can be asked
for: that is a fault of its own, and told only of a text that is a pattern.
-/

namespace Offload.Directive.Pattern

inductive Fault where
  | malformed
  /-- the edges of words in Unicode -/
  | wideWords
  deriving DecidableEq, Repr

/-! ## groups -/

/-- one part of an alternative; what changes options is a part, but cannot be repeated -/
structure Part where
  depth : Nat
  repeatable : Bool

/-- the parts, the last one first -/
abbrev Branch : Type := List Part

def Branch.depth (b : Branch) : Nat := Depth.joined (b.map Part.depth)

/-- the last part repeated -/
def Branch.repeated? : Branch → Option Branch
  | [] => none
  | part :: parts => if part.repeatable then some (⟨part.depth + 1, true⟩ :: parts) else none

structure Group where
  /-- what holds again behind the group -/
  options : Options
  /-- the depths of the alternatives before the last -/
  before : List Nat
  branch : Branch

namespace Group

def start (o : Options) : Group := ⟨o, [], []⟩

def add (g : Group) (p : Part) : Group := { g with branch := p :: g.branch }

/-- behind the mark between two alternatives -/
def alternative (g : Group) : Group := { g with before := g.branch.depth :: g.before, branch := [] }

/-- the depth of all so far -/
def depth (g : Group) : Nat :=
  if g.before.isEmpty then g.branch.depth else Depth.above (g.branch.depth :: g.before)

end Group

/-! ## names -/

def isNameStart (c : Char) : Bool := c = '_' || Alphanumeric.letter c

def isNameRest (c : Char) : Bool := ['_', '.', '[', ']'].contains c || Alphanumeric.char c

def isName : List Char → Bool
  | [] => false
  | c :: cs => isNameStart c && cs.all isNameRest

/-- the name up to its closing angle bracket, and what follows it -/
def name? (cs : List Char) : Option (List Char × List Char) :=
  match cs.dropWhile (· ≠ '>') with
  | [] => none
  | _ :: rest =>
    let name := cs.takeWhile (· ≠ '>')
    if isName name then some (name, rest) else none

/-! ## the whole -/

structure Scan where
  /-- what holds now -/
  options : Options
  /-- the names of groups so far -/
  names : List (List Char)
  /-- whether the edges of words in Unicode were asked for -/
  wideWords : Bool
  /-- the innermost group -/
  group : Group
  /-- the groups around it -/
  outer : List Group

namespace Scan

def start : Scan := ⟨.standard, [], false, .start .standard, []⟩

def add (s : Scan) (p : Part) : Scan := { s with group := s.group.add p }

/-- into a group, with other options -/
def enter (s : Scan) (o : Options) : Scan :=
  { s with options := o, group := .start s.options, outer := s.group :: s.outer }

def leave? (s : Scan) : Option Scan :=
  match s.outer with
  | [] => none
  | parent :: outer =>
    some { s with
      options := s.group.options
      group := parent.add ⟨s.group.depth + 1, true⟩
      outer := outer }

/-- into a group with a name of its own -/
def enterNamed? (s : Scan) (cs : List Char) : Option (Scan × List Char) :=
  match name? cs with
  | none => none
  | some (name, rest) =>
    if s.names.contains name then none
    else some ({ s with names := name :: s.names }.enter s.options, rest)

/-- behind an opening bracket -/
def opened? (s : Scan) (cs : List Char) : Option (Scan × List Char) :=
  match s.options.skip cs with
  | '?' :: 'P' :: '<' :: rest | '?' :: '<' :: rest => s.enterNamed? rest
  | '?' :: rest =>
    match Options.read? rest with
    | none => none
    | some (word, mark, rest) =>
      let o := s.options.change word
      if mark = ':' then some (s.enter o, rest)
      else if word.isEmpty then none
      else some ({ s with options := o }.add ⟨0, false⟩, rest)
  | cs => some (s.enter s.options, cs)

def repeated? (s : Scan) : Option Scan :=
  s.group.branch.repeated?.map fun b => { s with group := { s.group with branch := b } }

def atom? (s : Scan) (a : Atom) : Option Scan :=
  if a.usable s.options then
    some ({ s with wideWords := s.wideWords || (a = Atom.wordEdge && s.options.wide) }.add ⟨0, true⟩)
  else none

/-- the next part or mark, which starts with this character, and what follows it -/
def step? (s : Scan) (c : Char) (rest : List Char) : Option (Scan × List Char) :=
  match c with
  | '(' => s.opened? rest
  | ')' => s.leave?.map fun s => (s, rest)
  | '|' => some ({ s with group := s.group.alternative }, rest)
  | '[' => (Class.read? s.options rest).map fun r => (s.add ⟨r.1, true⟩, r.2)
  | '?' | '*' | '+' =>
    s.repeated?.map fun s => (s, if rest.head? = some '?' then rest.tail else rest)
  | '\x7b' => none
  | '\\' =>
    match Atom.escaped? s.options rest with
    | none => none
    | some (a, rest) => (s.atom? a).map fun s => (s, rest)
  | '.' => (s.atom? .any).map fun s => (s, rest)
  | '^' | '$' => (s.atom? .edge).map fun s => (s, rest)
  | c => (s.atom? (.character c)).map fun s => (s, rest)

/-- the end of a text of fewer than that many characters -/
def finish? : Nat → Scan → List Char → Option Scan
  | 0, _, _ => none
  | fuel + 1, s, cs =>
    match s.options.skip cs with
    | [] => if s.outer.isEmpty then some s else none
    | c :: rest =>
      match s.step? c rest with
      | none => none
      | some (s, rest) => finish? fuel s rest

end Scan

def check (cs : List Char) : Option Fault :=
  match Scan.start.finish? (cs.length + 1) cs with
  | none => some .malformed
  | some s =>
    if Depth.limit < s.group.depth then some .malformed
    else if s.wideWords then some .wideWords
    else none

end Offload.Directive.Pattern
