import Offload.Json.Number
import Offload.Text.Hex

/-!
# JSON tokens

* `Token`         what a JSON text is made of, between white space;
* `Token.scan`    the tokens of a text.  Where the text is no token, `bad` ends the list;
* `Token.write`   the characters of a token.

Reading a text token by token meets `bad` only where everything before it was in order, so the first
offence in reading order is found.
-/

namespace Offload.Json

inductive Token where
  | openBrace | closeBrace | openBracket | closeBracket | colon | comma
  | null
  | boolean (b : Bool)
  | number (n : Number)
  | text (s : String)
  /-- no token -/
  | bad
  deriving Inhabited

namespace Token

/-! ## strings -/

/-- the character behind a backslash, for all escapes but those by number -/
def escaped? : Char → Option Char
  | '"' => some '"'
  | '\\' => some '\\'
  | '/' => some '/'
  | 'b' => some '\x08'
  | 'f' => some '\x0c'
  | 'n' => some '\n'
  | 'r' => some '\r'
  | 't' => some '\t'
  | _ => none

/-- the leading half of a pair -/
def isLeading (u : Nat) : Bool := 0xD800 ≤ u && u < 0xDC00

/-- the trailing half of a pair -/
def isTrailing (u : Nat) : Bool := 0xDC00 ≤ u && u < 0xE000

/-- the character that two halves stand for -/
def joined (u v : Nat) : Char := Char.ofNat (0x10000 + (u - 0xD800) * 0x400 + (v - 0xDC00))

/-- the string that starts behind an opening quote, and what follows its closing quote -/
def string? : List Char → Option (List Char × List Char)
  | [] => none
  | '"' :: rest => some ([], rest)
  | '\\' :: 'u' :: a :: b :: c :: d :: rest =>
    match Text.Hex.readOnto 0 [a, b, c, d] with
    | none => none
    | some u =>
      if isLeading u then
        match rest with
        | '\\' :: 'u' :: a :: b :: c :: d :: rest =>
          match Text.Hex.readOnto 0 [a, b, c, d] with
          | none => none
          | some v =>
            if isTrailing v then (string? rest).map fun r => (joined u v :: r.1, r.2) else none
        | _ => none
      else if isTrailing u then none
      else (string? rest).map fun r => (Char.ofNat u :: r.1, r.2)
  | '\\' :: c :: rest =>
    match escaped? c with
    | some x => (string? rest).map fun r => (x :: r.1, r.2)
    | none => none
  | c :: rest =>
    if c.toNat < 0x20 then none else (string? rest).map fun r => (c :: r.1, r.2)

/-- Quotes, backslashes and control characters are escaped, all else stands for itself. -/
def writeChar (c : Char) : List Char :=
  if c = '"' then ['\\', '"']
  else if c = '\\' then ['\\', '\\']
  else if c = '\x08' then ['\\', 'b']
  else if c = '\x0c' then ['\\', 'f']
  else if c = '\n' then ['\\', 'n']
  else if c = '\r' then ['\\', 'r']
  else if c = '\t' then ['\\', 't']
  else if c.toNat < 0x20 then
    ['\\', 'u', '0', '0', Text.Hex.ofDigit (c.toNat / 16), Text.Hex.ofDigit (c.toNat % 16)]
  else [c]

/-! ## tokens -/

def isSpace (c : Char) : Bool := c = ' ' || c = '\t' || c = '\n' || c = '\r'

/-- the token at the start of a text that starts with no space, and what follows it -/
def next? : List Char → Option (Token × List Char)
  | '\x7b' :: rest => some (openBrace, rest)
  | '\x7d' :: rest => some (closeBrace, rest)
  | '[' :: rest => some (openBracket, rest)
  | ']' :: rest => some (closeBracket, rest)
  | ':' :: rest => some (colon, rest)
  | ',' :: rest => some (comma, rest)
  | 'n' :: 'u' :: 'l' :: 'l' :: rest => some (null, rest)
  | 't' :: 'r' :: 'u' :: 'e' :: rest => some (boolean true, rest)
  | 'f' :: 'a' :: 'l' :: 's' :: 'e' :: rest => some (boolean false, rest)
  | '"' :: rest => (string? rest).map fun r => (text (String.ofList r.1), r.2)
  | cs => (Number.read? cs).map fun r => (number r.1, r.2)

/-- `scan` for a text of at most that many characters -/
def scanWithin : Nat → List Char → List Token
  | _, [] => []
  | 0, _ => [bad]
  | fuel + 1, c :: cs =>
    if isSpace c then scanWithin fuel cs
    else
      match next? (c :: cs) with
      | some (t, rest) => t :: scanWithin fuel rest
      | none => [bad]

def scan (cs : List Char) : List Token := scanWithin cs.length cs

def write : Token → List Char
  | openBrace => ['\x7b']
  | closeBrace => ['\x7d']
  | openBracket => ['[']
  | closeBracket => [']']
  | colon => [':']
  | comma => [',']
  | null => "null".toList
  | boolean true => "true".toList
  | boolean false => "false".toList
  | number n => n.write
  | text s => '"' :: s.toList.flatMap writeChar ++ ['"']
  | bad => []

/-- tokens written without space between them -/
def writeAll (ts : List Token) : String := String.ofList (ts.flatMap write)

end Token

end Offload.Json
