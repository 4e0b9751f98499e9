import Offload.Trace.Note
import Offload.Trace.Rate

/-!
# Performance records

Allocations, transfers, submissions and spans of time are recorded, unless that is switched off or
they took too little time.

* `Settings`   whether to record, and from how many microseconds on.  A threshold of zero is none;
* `Measure`    one measured piece of work, with how long it took;
* `Span`       a stretch of time under a name.  Its threshold is fixed when it is made, whether it is
               recorded is decided when it ends.
-/

namespace Offload.Trace

structure Settings where
  enabled : Bool
  /-- microseconds -/
  threshold : Nat
  deriving DecidableEq, Repr

namespace Settings

def initial : Settings := ⟨true, 0⟩

def configure (enabled : Bool) (threshold : Option Nat) : Settings := ⟨enabled, threshold.getD 0⟩

def threshold? (s : Settings) : Option Nat := if s.threshold = 0 then none else some s.threshold

/-- whether work of that duration is recorded -/
def records (s : Settings) (us : Nat) : Bool := s.enabled && s.threshold ≤ us

theorem records_iff {s : Settings} {us : Nat} :
    s.records us = true ↔ s.enabled = true ∧ s.threshold ≤ us := by
  simp [records]

end Settings

/-- measured work and its duration in microseconds -/
inductive Measure where
  | allocation (size alignment : Nat) (space : String) (us : Nat)
  | transfer (size : Nat) (direction : String) (us : Nat)
  | submission (kernel backend : String) (elements us : Nat)
  deriving DecidableEq, Repr

namespace Measure

def duration : Measure → Nat
  | allocation _ _ _ us | transfer _ _ us | submission _ _ _ us => us

def note : Measure → Note
  | allocation size alignment space us =>
    ⟨"memory_allocation", .debug,
      [("event", .text "allocation"), ("size_bytes", .natural size),
       ("size_kb", .real (Rate.ofNat size / Rate.kibi)), ("memory_class", .text space),
       ("alignment", .natural alignment), ("duration_us", .natural us)]⟩
  | transfer size direction us =>
    ⟨"data_transfer", .debug,
      [("event", .text "transfer"), ("bytes", .natural size), ("direction", .text direction),
       ("duration_us", .natural us), ("bandwidth_mibps", .real (Rate.mebibytes size us))]⟩
  | submission kernel backend elements us =>
    ⟨"kernel_submission", .debug,
      [("event", .text "submission"), ("kernel", .text kernel), ("backend", .text backend),
       ("elements", .natural elements), ("duration_us", .natural us),
       ("elements_per_sec", .real (Rate.elements elements us)),
       ("melems_per_sec", .real (Rate.elements elements us / Rate.million))]⟩

end Measure

/-- a stretch of time under a name -/
structure Span where
  name : String
  level : Level
  /-- microseconds; absent, every duration is recorded -/
  threshold : Option Nat
  deriving DecidableEq, Repr

namespace Span

def plain (name : String) (threshold : Option Nat) : Span := ⟨name, .debug, threshold⟩

/-- with the threshold that is in force -/
def configured (s : Settings) (name : String) : Span := plain name s.threshold?

/-- whether a span that ends after that time is recorded -/
def records (span : Span) (s : Settings) (us : Nat) : Bool :=
  s.enabled && span.threshold.all (· ≤ us)

end Span

end Offload.Trace
