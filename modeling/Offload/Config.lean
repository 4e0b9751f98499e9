import Offload.Accelerator.Device
import Offload.Environment
import Offload.Text.Numeral
import Offload.Text.Pieces
import Offload.Text.Quoted

/-!
# Configuration

* `Config`                  where the extension table comes from, for which processor flags, and how
                            an accelerator is set up;
* `Config.ofEnvironment`    the configuration that environment variables ask for.  A variable that is
                            unset, blank or no text keeps the default; the first bad value in the
                            order device, profiling, limit is the error;
* `Config.description`      the configuration as the log shows it.
-/

namespace Offload

structure Config where
  /-- the file of the extension table -/
  path : Option String
  /-- the processor flags to keep; absent, those of the running processor decide -/
  flags : Option (List String)
  accelerator : Accelerator.Setup
  deriving DecidableEq, Repr

namespace Config

def standard : Config := ⟨none, none, .standard⟩

/-! ## environment variables -/

def pathVariable : String := "VECTORHAL_EXTENSION_TABLE"
def flagsVariable : String := "VECTORHAL_TARGET_FLAGS"
def deviceVariable : String := "VECTORHAL_ACCEL_DEVICE"
def profilingVariable : String := "VECTORHAL_ACCEL_PROFILING"
def limitVariable : String := "VECTORHAL_ACCEL_MEMORY_LIMIT"

/-- what stands between commas, without blanks around it; nothing is no flag -/
def readFlags (s : String) : List String :=
  (((Text.Pieces.cut ',' s.toList).map Text.Blank.trim).filter (!·.isEmpty)).map String.ofList

def readSwitch (s : String) : Except Error Bool :=
  let word := Text.Ascii.lower (Text.Blank.trimmed s)
  if word ∈ ["1", "true", "yes", "on"] then .ok true
  else if word ∈ ["0", "false", "no", "off"] then .ok false
  else .error (.invalidConfig s!"{profilingVariable}='{word}' is not a boolean")

def readLimit (s : String) : Except Error Nat :=
  match Text.Numeral.read (Text.Blank.trimmed s) with
  | .ok n => .ok n
  | .error fault => .error (.invalidConfig s!"{limitVariable}='{s}': {fault.message}")

/-- a variable read by `f`, or the default if it is not set -/
def orDefault {α : Type} (d : α) (f : String → Except Error α) : Option String → Except Error α
  | none => .ok d
  | some s => f s

def ofEnvironment (env : Environment) : Except Error Config := do
  let device ← orDefault .emulator Accelerator.Selector.parse (env.nonblank? deviceVariable)
  let profiling ← orDefault false readSwitch (env.nonblank? profilingVariable)
  let limit ← orDefault none (fun s => some <$> readLimit s) (env.nonblank? limitVariable)
  .ok ⟨env.nonblank? pathVariable, (env.nonblank? flagsVariable).map readFlags,
    ⟨device, profiling, ⟨true, true⟩, limit⟩⟩

/-! ## the text of a configuration -/

/-- a structure with its fields -/
def described (title : String) (fields : List (String × String)) : String :=
  title ++ " \x7b " ++ ", ".intercalate (fields.map fun f => s!"{f.1}: {f.2}") ++ " \x7d"

def optional : Option String → String
  | none => "None"
  | some s => s!"Some({s})"

def switch (b : Bool) : String := if b then "true" else "false"

def describeDevice : Accelerator.Selector → String
  | .emulator => "Emulator"
  | .hardware => "Hardware"

def describeAccelerator (s : Accelerator.Setup) : String :=
  described "AcceleratorConfig"
    [("device", describeDevice s.device),
     ("enable_profiling", switch s.profiling),
     ("emulator", described "EmulatorOptions"
       [("capabilities", described "DeviceCapabilities"
          [("host_allocations", switch s.capabilities.host),
           ("device_allocations", switch s.capabilities.device)]),
        ("memory_limit_bytes", optional (s.limit.map fun n => s!"{n}"))])]

def description (c : Config) : String :=
  described "HalConfig"
    [("extension_table_path", optional (c.path.map Text.Quoted.text)),
     ("target_flags", optional (c.flags.map Text.Quoted.texts)),
     ("accelerator", describeAccelerator c.accelerator)]

end Config

end Offload
