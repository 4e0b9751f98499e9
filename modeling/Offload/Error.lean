import Offload.Element

/-!
# What can go wrong

Two things can keep an operation from answering.

* `Error`    a refusal: a value that says what was wrong.  `Error.kind` sorts refusals into five
             kinds, `Error.name` names the cause, `Error.message` is the text a user reads;
* `Crash`    a stop in the middle of running code: an index out of range, arithmetic that leaves
             the range of sizes, a text cut through a character, or a kernel that gives up.  Some
             carry no readable text.

`Failure ε` is either, for refusals of type `ε`; `Outcome α` is an answer or a failure.
-/

namespace Offload

/-- where accelerator memory lives -/
inductive MemoryClass where
  /-- in host memory that the device can see -/
  | hostVisible
  /-- on the device, reachable only by copies and kernels -/
  | deviceExclusive
  deriving DecidableEq, Repr, Inhabited

namespace MemoryClass

/-- the name by which records refer to a class -/
def name : MemoryClass → String
  | hostVisible => "host_visible"
  | deviceExclusive => "device_exclusive"

/-- the words by which messages refer to a class -/
def words : MemoryClass → String
  | hostVisible => "host-visible"
  | deviceExclusive => "device-exclusive"

/-- the class of that name -/
def ofName? (s : String) : Option MemoryClass := [hostVisible, deviceExclusive].find? (·.name == s)

end MemoryClass

/-- The last one is what kernels raise; all others come from the library. -/
inductive Error where
  | unsupportedVectorLength (element : Element) (width : Nat)
  | duplicateExtensionWidth (element : Element) (width : Nat) (first second : String)
  | invalidExtension (name reason : String)
  | invalidConfig (text : String)
  | allocationFailed (requested : Nat) (reason : String)
  | invalidAlignment (alignment : Nat)
  | invalidHandle (handle : Nat)
  | foreignHandle (handle owner expected : Nat)
  | wrongMemoryClass (handle : Nat) (expected actual : MemoryClass)
  | bufferOutOfBounds (requested length : Nat)
  | aliasedBuffers (handle : Nat)
  | typeMismatch (expected actual : String)
  | executorTornDown
  | executorFaulted (fault : String)
  | missingCapability (device capability : String)
  | deviceUnavailable (reason : String)
  | deviceFault (label text : String)
  | deviceLost (reason : String)
  | kernel (name text : String)
  deriving DecidableEq, Repr

namespace Error

inductive Kind where
  /-- the requested configuration cannot be met -/
  | configuration
  /-- memory could not be had -/
  | resourceExhaustion
  /-- the caller broke the rules of use -/
  | contractViolation
  /-- the device or its queue failed -/
  | deviceFault
  /-- raised by a kernel -/
  | kernel
  deriving DecidableEq, Repr

def Kind.words : Kind → String
  | configuration => "configuration"
  | resourceExhaustion => "resource exhaustion"
  | contractViolation => "contract violation"
  | deviceFault => "device fault"
  | kernel => "kernel"

def kind : Error → Kind
  | unsupportedVectorLength .. | duplicateExtensionWidth .. | invalidExtension ..
  | invalidConfig .. => .configuration
  | allocationFailed .. => .resourceExhaustion
  | invalidAlignment .. | invalidHandle .. | foreignHandle .. | wrongMemoryClass ..
  | bufferOutOfBounds .. | aliasedBuffers .. | typeMismatch .. | executorTornDown
  | executorFaulted .. | missingCapability .. | deviceUnavailable .. => .contractViolation
  | deviceFault .. | deviceLost .. => .deviceFault
  | kernel .. => .kernel

/-- the name by which records refer to a cause -/
def name : Error → String
  | unsupportedVectorLength .. => "UnsupportedVectorLength"
  | duplicateExtensionWidth .. => "DuplicateExtensionWidth"
  | invalidExtension .. => "InvalidExtension"
  | invalidConfig .. => "InvalidConfig"
  | allocationFailed .. => "AllocationFailed"
  | invalidAlignment .. => "InvalidAlignment"
  | invalidHandle .. => "InvalidHandle"
  | foreignHandle .. => "ForeignHandle"
  | wrongMemoryClass .. => "WrongMemoryClass"
  | bufferOutOfBounds .. => "BufferOutOfBounds"
  | aliasedBuffers .. => "AliasedBuffers"
  | typeMismatch .. => "TypeMismatch"
  | executorTornDown => "ExecutorTornDown"
  | executorFaulted .. => "ExecutorFaulted"
  | missingCapability .. => "MissingCapability"
  | deviceUnavailable .. => "DeviceUnavailable"
  | deviceFault .. => "DeviceFault"
  | deviceLost .. => "DeviceLost"
  | kernel .. => "Kernel"

/-- the text for users -/
def message : Error → String
  | unsupportedVectorLength e w => s!"unsupported vector length: {w} bits for {e.name}"
  | duplicateExtensionWidth e w a b =>
    s!"extensions '{a}' and '{b}' both provide {w}-bit vectors for {e.name}"
  | invalidExtension name reason => s!"invalid extension '{name}': {reason}"
  | invalidConfig text => s!"invalid configuration: {text}"
  | allocationFailed n reason => s!"allocation failed: {n} bytes ({reason})"
  | invalidAlignment a => s!"invalid alignment: {a} (must be a power of two)"
  | invalidHandle h => s!"invalid buffer handle: {h}"
  | foreignHandle h owner expected => s!"handle {h} belongs to owner {owner}, not {expected}"
  | wrongMemoryClass h expected actual =>
    s!"wrong memory class for handle {h}: expected {expected.words}, got {actual.words}"
  | bufferOutOfBounds n len =>
    s!"buffer access out of bounds: {n} elements > buffer length {len}"
  | aliasedBuffers h => s!"output buffer {h} is also an input"
  | typeMismatch expected actual => s!"type mismatch: expected {expected}, got {actual}"
  | executorTornDown => "executor has been torn down"
  | executorFaulted fault => s!"executor is faulted: {fault}"
  | missingCapability device capability =>
    s!"device '{device}' is missing capability: {capability}"
  | deviceUnavailable reason => s!"device unavailable: {reason}"
  | deviceFault label text => s!"device fault in '{label}': {text}"
  | deviceLost reason => s!"device lost: {reason}"
  | kernel name text => s!"kernel '{name}' failed: {text}"

/-- the line that an application which treats every error as fatal leaves behind when it stops -/
def fatalLine (e : Error) : String := s!"vectorhal: fatal {e.kind.words} error: {e.message}\n"

end Error

/-- a stop in the middle of running code -/
inductive Crash where
  | rangeEnd (stop length : Nat)
  | index (position length : Nat)
  | overflow (operation : String)
  | misaligned
  /-- a text was to be cut there, counted in bytes -/
  | insideCharacter (place : Nat)
  /-- what the code said when it gave up -/
  | said (text : String)
  /-- The code gave up without a readable word.  What it left behind instead is got rid of without another
  crash. -/
  | wordless
  deriving DecidableEq, Repr

/-- the readable text, where there is one -/
def Crash.text? : Crash → Option String
  | rangeEnd stop len => some s!"range end index {stop} out of range for slice of length {len}"
  | index i len => some s!"index out of bounds: the len is {len} but the index is {i}"
  | overflow op => some s!"attempt to {op} with overflow"
  | misaligned => some "cast_slice>TargetAlignmentGreaterAndInputNotAligned"
  | insideCharacter place => some s!"byte index {place} is not a char boundary"
  | said text => some text
  | wordless => none

inductive Failure (ε : Type) where
  | error (e : ε)
  | crash (c : Crash)
  deriving DecidableEq, Repr

/-- an answer, a refusal or a crash -/
abbrev Outcome (α : Type) : Type := Except (Failure Error) α

/-- an operation that refuses but never crashes, as an outcome -/
def Outcome.ofExcept {α : Type} : Except Error α → Outcome α
  | .ok a => .ok a
  | .error e => .error (.error e)

end Offload
