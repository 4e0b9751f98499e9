import Offload.Error

/-!
# Filters

Which entries a log shows is said by a filter.  Filters are written as text, and the library that reads
them is not part of this one: a setup only asks it for the filter that a text stands for.

* `Reader`          what a setup asks of that library, for filters of some type;
* `Reader.Accepts`  what it means that a text is a filter.
-/

namespace Offload.Trace

/-- Both ways to read a text can crash. -/
structure Reader (φ : Type) where
  /-- the filter that a text stands for, or what is wrong with the text -/
  strict : String → Except (Failure String) φ
  /-- the filter of all that makes sense in a text -/
  lenient : String → Except Crash φ

def Reader.Accepts {φ : Type} (r : Reader φ) (text : String) : Prop := ∃ f, r.strict text = .ok f

end Offload.Trace
