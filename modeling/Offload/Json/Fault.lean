import Offload.Json.Token
import Offload.Text.Quoted

/-!
# Why a JSON text is not what was asked for

* `Found`          what stands in the text where something else was expected;
* `Fault`          the first offence;
* `Fault.detail`   its wording.
-/

namespace Offload.Json

inductive Found where
  | null
  | boolean (b : Bool)
  | number (n : Number)
  | text (s : String)
  | sequence
  | map

def Found.words : Found → String
  | null => "null"
  | boolean b => s!"boolean `{b}`"
  | number (.natural n) => s!"integer `{n}`"
  | number (.negative n) => s!"integer `-{n}`"
  | number (.real x) => s!"floating point `{String.ofList (Number.layout.write x)}`"
  | text s => s!"string {Text.Quoted.text s}"
  | sequence => "sequence"
  | map => "map"

inductive Fault where
  /-- no JSON, or not of the right shape -/
  | malformed
  | wrongType (found : Found) (expected : String)
  | wrongValue (found : Found) (expected : String)
  /-- a record written as a list ended too early -/
  | tooShort (length : Nat) (expected : String)
  | missingField (name : String)
  | duplicateField (name : String)
  | unknownField (name : String) (known : List String)
  | unknownVariant (name : String) (known : List String)

namespace Fault

/-- the names that would have been right -/
def choice : List String → String
  | [a] => s!"`{a}`"
  | [a, b] => s!"`{a}` or `{b}`"
  | names => "one of " ++ ", ".intercalate (names.map fun a => s!"`{a}`")

def detail : Fault → String
  | malformed => "syntax"
  | wrongType found expected => s!"invalid type: {found.words}, expected {expected}"
  | wrongValue found expected => s!"invalid value: {found.words}, expected {expected}"
  | tooShort n expected => s!"invalid length {n}, expected {expected}"
  | missingField name => s!"missing field `{name}`"
  | duplicateField name => s!"duplicate field `{name}`"
  | unknownField name known => s!"unknown field `{name}`, expected {choice known}"
  | unknownVariant name known => s!"unknown variant `{name}`, expected {choice known}"

end Fault

end Offload.Json
