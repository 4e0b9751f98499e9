/-!
# Log entries

A log entry has a name, a level and named fields.

* `Level`   how grave an entry is;
* `Field`   the value of a field;
* `Note`    an entry.
-/

namespace Offload.Trace

inductive Level where
  | trace | debug | info | warn | error
  deriving DecidableEq, Repr, Inhabited

namespace Level

def name : Level → String
  | trace => "TRACE"
  | debug => "DEBUG"
  | info => "INFO"
  | warn => "WARN"
  | error => "ERROR"

def all : List Level := [trace, debug, info, warn, error]

def ofName? (s : String) : Option Level := all.find? (·.name = s)

end Level

inductive Field where
  | natural (n : Nat)
  | real (x : Float)
  | text (s : String)

structure Note where
  name : String
  level : Level
  fields : List (String × Field)

end Offload.Trace
