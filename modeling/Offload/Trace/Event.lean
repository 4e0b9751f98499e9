import Offload.Config
import Offload.Trace.Performance

/-!
# What happens

* `Event`         everything that is logged, as data;
* `Event.note`    the log entry of an event;
* `measured`, `ended`  the events of performance records and ended spans: none or one.
-/

namespace Offload

inductive Event where
  | tableBuilt (names : List String)
  | configLoaded (config : Config)
  | hostExecutorCreated (extensions : List String)
  | hostExecutorDropped (live : Nat)
  | hostBufferAllocated (buffer elements : Nat) (element : Element) (size alignment : Nat)
  | hostBufferFreed (buffer size : Nat)
  | acceleratorCreated (executor : Nat) (device : Accelerator.Descriptor)
  | deviceBufferAllocated (executor buffer : Nat) (space : MemoryClass) (elements : Nat)
      (element : Element)
  | deviceBufferFreed (executor buffer : Nat) (space : MemoryClass) (size : Nat)
  /-- a kernel refused its operands -/
  | kernelFailed (executor : Nat) (command : String) (error : Error)
  | deviceFaulted (executor : Nat) (command : String) (error : Error)
  | workerExited
  | allocationsLeaked (executor allocations bytes : Nat)
  | acceleratorTornDown (executor : Nat) (device : String)
  /-- measured work -/
  | measure (m : Trace.Measure)
  /-- the end of a span of time, in microseconds -/
  | spanEnded (us : Nat)
  /-- the end of a timed block -/
  | blockEnded (name : String) (us : Nat)
  /-- what a kernel has to say -/
  | remark (note : Trace.Note)

namespace Event

open Trace

def note : Event → Note
  | tableBuilt names =>
    ⟨"extension_table_built", .debug,
      [("extensions", .natural names.length), ("names", .text (Text.Quoted.texts names))]⟩
  | configLoaded c => ⟨"hal_config_loaded", .debug, [("config", .text c.description)]⟩
  | hostExecutorCreated names =>
    ⟨"executor_created", .info,
      [("backend", .text "cpu"), ("extensions", .text (Text.Quoted.texts names))]⟩
  | hostExecutorDropped live =>
    ⟨"executor_dropped", .debug, [("backend", .text "cpu"), ("live_allocations", .natural live)]⟩
  | hostBufferAllocated buffer elements element size alignment =>
    ⟨"host_buffer_allocated", .debug,
      [("buffer", .natural buffer), ("elements", .natural elements),
       ("element_type", .text element.name), ("size_bytes", .natural size),
       ("alignment", .natural alignment)]⟩
  | hostBufferFreed buffer size =>
    ⟨"host_buffer_freed", .debug, [("buffer", .natural buffer), ("size_bytes", .natural size)]⟩
  | acceleratorCreated executor device =>
    ⟨"executor_created", .info,
      [("executor", .natural executor), ("device", .text device.name),
       ("kind", .text device.kind.name)]⟩
  | deviceBufferAllocated executor buffer space elements element =>
    ⟨"device_buffer_allocated", .debug,
      [("executor", .natural executor), ("buffer", .natural buffer), ("class", .text space.words),
       ("elements", .natural elements), ("element_type", .text element.name)]⟩
  | deviceBufferFreed executor buffer space size =>
    ⟨"device_buffer_freed", .debug,
      [("executor", .natural executor), ("buffer", .natural buffer), ("class", .text space.words),
       ("size_bytes", .natural size)]⟩
  | kernelFailed executor command error =>
    ⟨"kernel_error", .warn,
      [("executor", .natural executor), ("command", .text command), ("error", .text error.message)]⟩
  | deviceFaulted executor command error =>
    ⟨"device_fault", .error,
      [("executor", .natural executor), ("command", .text command), ("error", .text error.message)]⟩
  | workerExited => ⟨"queue_worker_exited", .trace, []⟩
  | allocationsLeaked executor allocations bytes =>
    ⟨"device_allocations_leaked", .warn,
      [("executor", .natural executor), ("allocations", .natural allocations),
       ("bytes", .natural bytes)]⟩
  | acceleratorTornDown executor device =>
    ⟨"executor_torn_down", .info, [("executor", .natural executor), ("device", .text device)]⟩
  | measure m => m.note
  | spanEnded us =>
    ⟨"performance_span_complete", .debug,
      [("duration_us", .natural us), ("duration_ms", .real (Rate.ofNat us / Rate.ofNat 1000))]⟩
  | blockEnded name us =>
    ⟨"timed_block_complete", .debug, [("operation", .text name), ("duration_us", .natural us)]⟩
  | remark n => n

end Event

namespace Trace

def measured (s : Settings) (m : Measure) : List Event :=
  if s.records m.duration then [.measure m] else []

def ended (s : Settings) (span : Span) (us : Nat) : List Event :=
  if span.records s us then [.spanEnded us] else []

end Trace

end Offload
