import Offload.Directive.Pattern.Atom
import Offload.Directive.Pattern.Depth

/-!
# Classes between square brackets

A class lists characters, ranges of characters, named classes and further classes.  Doubled marks
between such lists make a class out of two.

* `Class.named?`   a named class of ASCII characters, between colons within brackets;
* `Class.item?`    a character or a range;
* `Class.Level`    what is read so far of a class that is still open;
* `Class.read?`    the depth of the class behind an opening bracket, and what follows it.

A minus sign stands for itself at the start and at the end, and a closing bracket where it comes first.
So there is no way to write an empty list at the start of a class.
-/

namespace Offload.Directive.Pattern.Class

def names : List String :=
  ["alnum", "alpha", "ascii", "blank", "cntrl", "digit", "graph", "lower", "print", "punct", "space",
    "upper", "word", "xdigit"]

/-- whether all characters but those of the class are meant, and what follows; the opening bracket is
read already -/
def named? : List Char → Option (Bool × List Char)
  | ':' :: cs =>
    let (others, cs) := match cs with
      | '^' :: cs => (true, cs)
      | cs => (false, cs)
    match cs.dropWhile (· ≠ ':') with
    | ':' :: ']' :: rest =>
      if names.contains (String.ofList (cs.takeWhile (· ≠ ':'))) then some (others, rest) else none
    | _ => none
  | _ => none

/-- Whether a named class is usable.  It holds characters of ASCII, but all others are wide ones. -/
def usable (o : Options) (others : Bool) : Bool := if o.wide then !o.caseless else !others

/-- one atom -/
def atom? (o : Options) : List Char → Option (Atom × List Char)
  | [] => none
  | '\\' :: rest => Atom.escaped? o rest
  | c :: rest => some (.character c, rest)

/-- The character behind a minus sign.  In a spaced pattern it is looked for in a comment too. -/
def next? (o : Options) (cs : List Char) : Option Char :=
  if !o.spaced then cs.head?
  else
    match cs.dropWhile Text.Blank.char with
    | '#' :: cs => (cs.dropWhile Text.Blank.char).head?
    | cs => cs.head?

/-- what follows a single member or a range -/
def item? (o : Options) (cs : List Char) : Option (List Char) :=
  match atom? o cs with
  | none => none
  | some (first, rest) =>
    let single := if first.member o then some (o.skip rest) else none
    match o.skip rest with
    | '-' :: behind =>
      if next? o behind = some ']' || next? o behind = some '-' then single
      else
        match atom? o (o.skip behind) with
        | none => none
        | some (last, rest) =>
          match first.member? o, last.member? o with
          | some a, some b => if a ≤ b then some rest else none
          | _, _ => none
    | _ => single

/-- a class that is still open -/
structure Level where
  /-- the depth of what is left of the last doubled mark -/
  left : Option Nat
  /-- the depths of what is listed since -/
  members : List Nat
  /-- whether there were only minus signs so far -/
  fresh : Bool

namespace Level

def start : Level := ⟨none, [], true⟩

def add (l : Level) (depth : Nat) : Level := { l with members := depth :: l.members, fresh := false }

/-- the depth of all so far -/
def depth (l : Level) : Nat :=
  match l.left with
  | none => Depth.joined l.members
  | some d => Depth.above [d, Depth.joined l.members]

/-- behind a doubled mark -/
def combine (l : Level) : Level := ⟨some l.depth, [], false⟩

/-- whether a character stands for itself only because of its place -/
def isLiteral (l : Level) (c : Char) : Bool := l.fresh && (c = '-' || (c = ']' && l.members.isEmpty))

end Level

/-- what follows an opening bracket; to take all other characters is to take wide ones -/
def negation? (o : Options) (cs : List Char) : Option (List Char) :=
  match o.skip cs with
  | '^' :: rest => if o.wide then some rest else none
  | cs => some cs

/-- the innermost open class, with those around it -/
def readWithin (o : Options) : Nat → Level → List Level → List Char → Option (Nat × List Char)
  | 0, _, _, _ => none
  | fuel + 1, level, outer, cs =>
    match o.skip cs with
    | [] => none
    | c :: rest =>
      if level.isLiteral c then
        if (Atom.character c).member o then
          readWithin o fuel { level.add 0 with fresh := c = '-' } outer rest
        else none
      else
        match c, rest with
        | '[', _ =>
          match named? rest with
          | some (others, rest) =>
            if usable o others then readWithin o fuel (level.add 0) outer rest else none
          | none =>
            match negation? o rest with
            | none => none
            | some rest => readWithin o fuel .start (level :: outer) rest
        | ']', _ =>
          match outer with
          | [] => some (level.depth + 1, rest)
          | parent :: outer => readWithin o fuel (parent.add (level.depth + 1)) outer rest
        | '&', '&' :: rest | '-', '-' :: rest | '~', '~' :: rest =>
          readWithin o fuel level.combine outer rest
        | _, _ =>
          match item? o (c :: rest) with
          | none => none
          | some rest => readWithin o fuel (level.add 0) outer rest

def read? (o : Options) (cs : List Char) : Option (Nat × List Char) :=
  match negation? o cs with
  | none => none
  | some rest => readWithin o (rest.length + 1) .start [] rest

end Offload.Directive.Pattern.Class
