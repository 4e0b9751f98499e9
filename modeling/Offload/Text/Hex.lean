/-!
# Hexadecimal text

* `Hex.write`       a natural in lower case, filled up with zeros to a width;
* `Hex.writeBytes`  bytes, two digits each;
* `Hex.read?`, `Hex.readBytes?`  the way back, in letters of either case.
-/

namespace Offload.Text.Hex

def digit? (c : Char) : Option Nat :=
  if '0' ≤ c ∧ c ≤ '9' then some (c.toNat - '0'.toNat)
  else if 'a' ≤ c ∧ c ≤ 'f' then some (c.toNat - 'a'.toNat + 10)
  else if 'A' ≤ c ∧ c ≤ 'F' then some (c.toNat - 'A'.toNat + 10)
  else none

def ofDigit (d : Nat) : Char :=
  if d < 10 then Char.ofNat ('0'.toNat + d) else Char.ofNat ('a'.toNat + (d - 10))

/-- the digits of a natural, at least one -/
def digits (n : Nat) : List Char :=
  if n < 16 then [ofDigit n] else digits (n / 16) ++ [ofDigit (n % 16)]
  termination_by n
  decreasing_by omega

def write (width n : Nat) : String :=
  let ds := digits n
  String.ofList (List.replicate (width - ds.length) '0' ++ ds)

def writeBytes (bs : List UInt8) : String :=
  String.ofList (bs.flatMap fun b => [ofDigit (b.toNat / 16), ofDigit (b.toNat % 16)])

def readOnto (n : Nat) (cs : List Char) : Option Nat :=
  cs.foldlM (fun n c => (digit? c).map (16 * n + ·)) n

/-- at least one digit -/
def read? (cs : List Char) : Option Nat := if cs.isEmpty then none else readOnto 0 cs

def readBytes? : List Char → Option (List UInt8)
  | [] => some []
  | [_] => none
  | a :: b :: cs =>
    match readOnto 0 [a, b], readBytes? cs with
    | some n, some bs => some (UInt8.ofNat n :: bs)
    | _, _ => none

end Offload.Text.Hex
