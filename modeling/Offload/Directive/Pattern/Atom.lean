import Offload.Text.Hex
import Offload.Directive.Pattern.Options

/-!
# Atoms of patterns

* `Atom`           the smallest parts of a pattern;
* `Atom.escaped?`  the atom behind a backslash, and what follows it;
* `Atom.usable`    whether an atom can be used under some options, by itself;
* `Atom.member`    the same in a class between square brackets.

There are no tables of Unicode properties here.  So the classes of digits, blanks and word characters,
and letters in either case, are usable for ASCII alone.  For ASCII alone in turn nothing is usable that
could take in a part of a longer character.
-/

namespace Offload.Directive.Pattern

inductive Atom where
  | character (c : Char)
  /-- a character written as a byte -/
  | byte (c : Char)
  /-- digits, blanks or word characters, or all others -/
  | sort (others : Bool)
  | any
  /-- an end of the text or of a line -/
  | edge
  /-- where a word begins or ends, or does not -/
  | wordEdge
  deriving DecidableEq, Repr

namespace Atom

/-- the control characters that have a letter -/
def control? : Char → Option Char
  | 'a' => some '\x07'
  | 'f' => some '\x0c'
  | 'n' => some '\n'
  | 'r' => some '\r'
  | 't' => some '\t'
  | 'v' => some '\x0b'
  | _ => none

/-- whether a character behind a backslash stands for itself -/
def isPlain (c : Char) : Bool := c.toNat < 0x80 && !c.isAlphanum && c ≠ '<' && c ≠ '>'

/-- the number in so many hexadecimal digits -/
def number? (o : Options) : Nat → Nat → List Char → Option (Nat × List Char)
  | 0, n, cs => some (n, cs)
  | left + 1, n, cs =>
    match o.skip cs with
    | [] => none
    | c :: rest =>
      match Text.Hex.digit? c with
      | none => none
      | some d => number? o left (16 * n + d) rest

/-- the character whose number is written in so many hexadecimal digits -/
def numbered? (o : Options) (digits : Nat) (cs : List Char) : Option (Char × List Char) :=
  match number? o digits 0 cs with
  | none => none
  | some (n, rest) => if n.isValidChar then some (Char.ofNat n, rest) else none

def escaped? (o : Options) : List Char → Option (Atom × List Char)
  | [] => none
  | 'x' :: rest => (numbered? o 2 rest).map fun r => (byte r.1, r.2)
  | 'u' :: rest => (numbered? o 4 rest).map fun r => (character r.1, r.2)
  | 'U' :: rest => (numbered? o 8 rest).map fun r => (character r.1, r.2)
  | c :: rest =>
    if ['d', 's', 'w'].contains c then some (sort false, rest)
    else if ['D', 'S', 'W'].contains c then some (sort true, rest)
    else if ['A', 'z'].contains c then some (edge, rest)
    else if ['b', 'B', '<', '>'].contains c then some (wordEdge, rest)
    else if isPlain c then some (character c, rest)
    else (control? c).map fun d => (character d, rest)

def usable (o : Options) : Atom → Bool
  | character _ => !(o.wide && o.caseless)
  | byte c => if o.wide then !o.caseless else c.toNat < 0x80
  | sort others => !o.wide && !others
  | any => o.wide
  | edge | wordEdge => true

/-- the character that an atom stands for in a class; unless characters are wide it is one of ASCII -/
def member? (o : Options) : Atom → Option Char
  | character c | byte c =>
    if o.wide then if o.caseless then none else some c
    else if c.toNat < 0x80 then some c else none
  | _ => none

def member (o : Options) : Atom → Bool
  | sort others => usable o (sort others)
  | a => (member? o a).isSome

end Atom

end Offload.Directive.Pattern
