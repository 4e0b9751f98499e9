/-!
# How deep patterns are nested

* `Depth.joined`   the depth of parts side by side: one part counts for itself alone, several are one
                   deeper than the deepest;
* `Depth.limit`    no pattern may be nested deeper.
-/

namespace Offload.Directive.Pattern.Depth

def limit : Nat := 250

/-- one more than the deepest -/
def above (ds : List Nat) : Nat := ds.foldl max 0 + 1

def joined : List Nat → Nat
  | [] => 0
  | [d] => d
  | ds => above ds

end Offload.Directive.Pattern.Depth
