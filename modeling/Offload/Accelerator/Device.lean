import Offload.Error
import Offload.Text.Ascii
import Offload.Text.Blank

/-!
# Accelerator devices

* `Selector`    which device is meant, with its two spellings each (`Selector.parse`);
* `Setup`       what an executor is to be made with;
* `Descriptor`  an opened device; `Descriptor.validate` demands both memory classes.

There is no hardware to open, so only the emulator can be had.
-/

namespace Offload.Accelerator

inductive Selector where
  /-- the device emulated in this process -/
  | emulator
  /-- synthesized hardware behind a runtime of its vendor -/
  | hardware
  deriving DecidableEq, Repr, Inhabited

namespace Selector

def name : Selector → String
  | emulator => "emulator"
  | hardware => "hardware"

/-- the device of that name, in its one spelling -/
def ofName? (s : String) : Option Selector := [emulator, hardware].find? (·.name == s)

/-- Blanks around the text and the case of ASCII letters do not matter. -/
def parse (s : String) : Except Error Selector :=
  let word := Text.Ascii.lower (Text.Blank.trimmed s)
  if word = "emulator" ∨ word = "emu" then .ok emulator
  else if word = "hardware" ∨ word = "hw" then .ok hardware
  else .error (.invalidConfig
    s!"unknown accelerator device '{word}' (expected 'emulator' or 'hardware')")

end Selector

/-- the memory classes a device can allocate -/
structure Capabilities where
  host : Bool
  device : Bool
  deriving DecidableEq, Repr

/-- what an executor is to be made with -/
structure Setup where
  device : Selector
  /-- whether the queue keeps the labels of its commands -/
  profiling : Bool
  capabilities : Capabilities
  /-- the most bytes of device-exclusive memory; no limit if absent -/
  limit : Option Nat
  deriving DecidableEq, Repr

namespace Setup

/-- the emulator without profiling and without a limit -/
def standard : Setup := ⟨.emulator, false, ⟨true, true⟩, none⟩

end Setup

/-- an opened device -/
structure Descriptor where
  name : String
  kind : Selector
  capabilities : Capabilities
  limit : Option Nat
  deriving DecidableEq, Repr

namespace Descriptor

/-- Both memory classes are required. -/
def validate (d : Descriptor) : Except Error Unit :=
  if !d.capabilities.host then .error (.missingCapability d.name "usm_host_allocations")
  else if !d.capabilities.device then .error (.missingCapability d.name "usm_device_allocations")
  else .ok ()

end Descriptor

def Setup.descriptor (s : Setup) : Except Error Descriptor :=
  match s.device with
  | .emulator => .ok ⟨"vectorhal FPGA emulation device", .emulator, s.capabilities, s.limit⟩
  | .hardware =>
    .error (.deviceUnavailable "no FPGA hardware runtime is linked into this build")

end Offload.Accelerator
