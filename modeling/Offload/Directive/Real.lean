import Offload.Text.Ascii

/-!
# Numerals for real numbers

A real number is written as an optional sign before digits, which may have a point at either end or
among them and a power of ten behind them, or before a word for infinity or for "not a number".

* `Real.isNumeral`  whether a text is such a number.
-/

namespace Offload.Directive.Real

/-- in letters of either case -/
def words : List String := ["inf", "infinity", "nan"]

/-- what follows a sign, if there is one -/
def unsigned : List Char → List Char
  | '+' :: cs | '-' :: cs => cs
  | cs => cs

def isInteger (cs : List Char) : Bool := !(unsigned cs).isEmpty && (unsigned cs).all Char.isDigit

/-- the power of ten at the end, or nothing -/
def isPower : List Char → Bool
  | [] => true
  | c :: cs => (c = 'e' || c = 'E') && isInteger cs

/-- at least one digit, and a point at most -/
def isDecimal (cs : List Char) : Bool :=
  let whole := cs.takeWhile Char.isDigit
  match cs.dropWhile Char.isDigit with
  | '.' :: rest =>
    let fraction := rest.takeWhile Char.isDigit
    !(whole ++ fraction).isEmpty && isPower (rest.dropWhile Char.isDigit)
  | rest => !whole.isEmpty && isPower rest

def isNumeral (cs : List Char) : Bool :=
  isDecimal (unsigned cs) || words.any (Text.Ascii.same (String.ofList (unsigned cs)))

end Offload.Directive.Real
