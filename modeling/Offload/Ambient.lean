import Offload.Memory.Block
import Offload.Trace.Performance

/-!
# What operations find around them

* `Ambient`  the answers of the system's allocator, the performance settings in force, and how long
             measured work takes.
-/

namespace Offload

structure Ambient where
  grants : Allocator
  settings : Trace.Settings
  /-- how long a piece of work takes, in microseconds -/
  work : Nat
  /-- how long a span around it lasts -/
  span : Nat

end Offload
