import Offload.Text.Blank

/-!
# Options of patterns

A pattern can set options for what follows, by letters: those before a minus sign turn something on,
those behind it turn something off.

* `Options`         the options that bear on whether a text is a pattern;
* `Options.read?`   the letters behind an opening bracket and a question mark, up to a closing bracket
                    or a colon.  No letter may come twice;
* `Options.change`  what letters do;
* `Options.skip`    the next character that counts: in a spaced pattern blanks and comments do not.
-/

namespace Offload.Directive.Pattern

structure Options where
  /-- blanks and comments count for nothing -/
  spaced : Bool
  /-- letters stand for themselves in either case -/
  caseless : Bool
  /-- characters are those of Unicode, not just those of ASCII -/
  wide : Bool
  deriving DecidableEq, Repr

namespace Options

/-- what holds at the start of a pattern -/
def standard : Options := ⟨false, false, true⟩

/-- every letter that stands for an option -/
def letters : List Char := ['R', 'U', 'i', 'm', 's', 'u', 'x']

def set (value : Bool) (o : Options) : Char → Options
  | 'x' => { o with spaced := value }
  | 'i' => { o with caseless := value }
  | 'u' => { o with wide := value }
  | _ => o

def change (o : Options) (word : List Char) : Options :=
  let on := word.takeWhile (· ≠ '-')
  let off := word.dropWhile (· ≠ '-')
  off.foldl (set false) (on.foldl (set true) o)

/-- A minus sign comes once at most, and not at the end. -/
def isWord (word : List Char) : Bool :=
  word.all (fun c => c = '-' || letters.contains c) && decide word.Nodup && word.getLast? ≠ some '-'

/-- whether a character ends the letters -/
def isEnd (c : Char) : Bool := c = ')' || c = ':'

/-- the letters, the mark behind them, and what follows -/
def read? (cs : List Char) : Option (List Char × Char × List Char) :=
  let word := cs.takeWhile (!isEnd ·)
  match cs.dropWhile (!isEnd ·) with
  | [] => none
  | mark :: rest => if isWord word then some (word, mark, rest) else none

/-- what is behind blanks and comments, from inside a comment or not -/
def skipSpace : Bool → List Char → List Char
  | _, [] => []
  | true, c :: cs => skipSpace (c ≠ '\n') cs
  | false, c :: cs =>
    if Text.Blank.char c then skipSpace false cs else if c = '#' then skipSpace true cs else c :: cs

def skip (o : Options) (cs : List Char) : List Char := if o.spaced then skipSpace false cs else cs

end Options

end Offload.Directive.Pattern
