import Offload.Accelerator.Device
import Offload.Accelerator.Handle
import Offload.Accelerator.Queue
import Offload.Ambient
import Offload.Kernel.Basic
import Offload.Memory.Request
import Offload.Trace.Event

/-!
# The accelerator executor

An executor owns the memory of a device and runs copies and kernels on it through a queue.

* `Executor`     the executor; its `Lifecycle` goes from ready to faulted and to torn down, never back;
* `allocate`, `deallocate`, `copy`, `submit`, `readVisible`, `updateVisible`, `wait`, `teardown`
                 the operations.  All but the last are refused unless the executor is ready, before
                 anything else is looked at;
* `Reply`        the executor afterwards, the result, and what was logged, in order.

What a check refuses changes nothing.  A kernel's own refusal leaves the executor ready; any other
failure of a command makes it faulted.
-/

namespace Offload.Accelerator

inductive Lifecycle where
  | ready
  /-- with the message of the first fault -/
  | faulted (message : String)
  | tornDown
  deriving DecidableEq, Repr

structure Executor where
  id : Nat
  device : Descriptor
  memory : Memory
  queue : Queue
  state : Lifecycle

/-- what an operation leaves behind -/
structure Reply (α : Type) where
  executor : Executor
  result : Outcome α
  events : List Event

namespace Executor

variable {α : Type} {e : Element}

/-- what executors of this kind are called in records -/
def backend : String := "fpga_emulator"

/-- a new executor under a number -/
def start (id : Nat) (setup : Setup) : Except Error (Executor × List Event) :=
  match setup.descriptor with
  | .error err => .error err
  | .ok device =>
    match device.validate with
    | .error err => .error err
    | .ok () =>
      .ok (⟨id, device, .fresh device.limit, .start setup.profiling, .ready⟩,
        [.acceleratorCreated id device])

/-! ## checks -/

def checkReady (x : Executor) : Except Error Unit :=
  match x.state with
  | .ready => .ok ()
  | .faulted message => .error (.executorFaulted message)
  | .tornDown => .error .executorTornDown

def checkOwner (x : Executor) (h : Handle e) : Except Error Unit :=
  if h.owner ≠ x.id then .error (.foreignHandle h.id h.owner x.id) else .ok ()

def checkLive (x : Executor) (h : Handle e) : Except Error Unit :=
  match x.checkOwner h with
  | .error err => .error err
  | .ok () => if x.memory.contains h.id then .ok () else .error (.invalidHandle h.id)

/-- By the handle alone. -/
def checkVisible (x : Executor) (h : Handle e) : Except Error Unit :=
  match x.checkLive h with
  | .error err => .error err
  | .ok () =>
    if h.space = .hostVisible then .ok ()
    else .error (.wrongMemoryClass h.id .hostVisible h.space)

/-- every input, and that none of them is the output -/
def checkInputs (x : Executor) (output : Nat) : List (Handle e) → Except Error Unit
  | [] => .ok ()
  | h :: hs =>
    match x.checkLive h with
    | .error err => .error err
    | .ok () => if h.id = output then .error (.aliasedBuffers output) else x.checkInputs output hs

def checkTarget (x : Executor) : Target e → Except Error Unit
  | .host _ => .ok ()
  | .device h => x.checkLive h

def checkSource (x : Executor) : Source e → Except Error Unit
  | .host _ => .ok ()
  | .device h => x.checkLive h

/-! ## commands -/

def refuse (x : Executor) (err : Error) : Reply α := ⟨x, .error (.error err), []⟩

/-- Only the first fault counts. -/
def fault (x : Executor) (err : Error) : Executor :=
  match x.state with
  | .ready => { x with state := .faulted err.message }
  | _ => x

/-- runs a command on the queue -/
def command (x : Executor) (label : String) (job : Job α) : Reply α :=
  let answer := x.queue.run x.memory label job
  let x := { x with queue := answer.queue, memory := answer.memory }
  let remarks := answer.notes.map Event.remark
  match answer.result with
  | .ok a => ⟨x, .ok a, remarks⟩
  | .error err =>
    if err.kind = .kernel then
      ⟨x, .error (.error err), remarks ++ [.kernelFailed x.id label err]⟩
    else ⟨x.fault err, .error (.error err), remarks ++ [.deviceFaulted x.id label err]⟩

/-! ## memory -/

/-- so many zero elements -/
def allocate (x : Executor) (a : Ambient) (e : Element) (count : Nat) (space : MemoryClass)
    (alignment : Nat) : Reply (Handle e) :=
  match x.checkReady with
  | .error err => x.refuse err
  | .ok () =>
    match Offload.Memory.Request.ofElements e count alignment with
    | .error err => x.refuse err
    | .ok r =>
      match x.memory.allocate a.grants r.size r.alignment space e count with
      | .error err => x.refuse err
      | .ok (id, memory) =>
        ⟨{ x with memory := memory }, .ok ⟨id, count, space, x.id⟩,
          Trace.measured a.settings (.allocation r.size r.alignment space.name a.work) ++
            [.deviceBufferAllocated x.id id space count e]⟩

def deallocate (x : Executor) (h : Handle e) : Reply Unit :=
  match x.checkReady with
  | .error err => x.refuse err
  | .ok () =>
    match x.checkOwner h with
    | .error err => x.refuse err
    | .ok () =>
      match x.memory.free h.id h.space with
      | (.error f, memory) => ⟨{ x with memory := memory }, .error f, []⟩
      | (.ok size, memory) =>
        ⟨{ x with memory := memory }, .ok (), [.deviceBufferFreed x.id h.id h.space size]⟩

/-! ## copies -/

/-- the record of a finished copy -/
def transferred (a : Ambient) (e : Element) (count : Nat) (direction : String) : List Event :=
  Trace.measured a.settings (.transfer (count * e.bytes) direction a.work)

/-- the copy itself, once it is checked; the target comes back as it is afterwards -/
def move (x : Executor) (a : Ambient) (count : Nat) : Target e → Source e → Target e × Reply Unit
  | .host d, .host s =>
    (.host (Slice.put d 0 (s.take count)), ⟨x, .ok (), transferred a e count "H2H"⟩)
  | .device d, .host s =>
    let reply := x.command "copy_h2d" (.plain fun m => m.write d.id (s.take count))
    match reply.result with
    | .error _ => (.device d, reply)
    | .ok () => (.device d, { reply with events := reply.events ++ transferred a e count "H2D" })
  | .host d, .device s =>
    let reply := x.command "copy_d2h" (.plain fun m => (m.view s.id e count, m))
    match reply.result with
    | .error f => (.host d, ⟨reply.executor, .error f, reply.events⟩)
    | .ok xs =>
      (.host (Slice.put d 0 xs),
        ⟨reply.executor, .ok (), reply.events ++ transferred a e count "D2H"⟩)
  | .device d, .device s =>
    let reply := x.command "copy_d2d" (.plain fun m => m.copyBetween e d.id s.id count)
    match reply.result with
    | .error _ => (.device d, reply)
    | .ok () => (.device d, { reply with events := reply.events ++ transferred a e count "D2D" })

/-- what a copy checks before anything moves -/
def checkCopy (x : Executor) (dst : Target e) (src : Source e) (count : Nat) : Except Error Unit :=
  match x.checkReady with
  | .error err => .error err
  | .ok () =>
    match x.checkTarget dst with
    | .error err => .error err
    | .ok () =>
      match x.checkSource src with
      | .error err => .error err
      | .ok () =>
        let length := min dst.length src.length
        if length < count then .error (.bufferOutOfBounds count length) else .ok ()

/-- the first `count` elements from one end to the other -/
def copy (x : Executor) (a : Ambient) (dst : Target e) (src : Source e) (count : Nat) :
    Target e × Reply Unit :=
  match x.checkCopy dst src count with
  | .error err => (dst, x.refuse err)
  | .ok () => if count = 0 then (dst, ⟨x, .ok (), []⟩) else x.move a count dst src

/-! ## kernels -/

/-- the command of a submission; the output is taken out while it is written, and always put back -/
def kernelJob (k : Kernel) (s : Style) (output : Nat) (inputs : List Nat) (count : Nat) :
    Job Unit := fun m =>
  match m.take output with
  | .error err => ⟨m, .error (.error err), []⟩
  | .ok (target, rest) =>
    match target.view k.output count with
    | .error f => ⟨rest.restore output target, .error f, []⟩
    | .ok out =>
      match rest.views k.input count inputs with
      | .error f => ⟨rest.restore output target, .error f, []⟩
      | .ok ins =>
        let run := k.apply s out ins count
        ⟨rest.restore output (target.store run.output), run.outcome, run.notes⟩

/-- what a submission checks before the kernel runs -/
def checkSubmit (x : Executor) (k : Kernel) (width : Nat) (output : Handle k.output)
    (inputs : List (Handle k.input)) (count : Nat) : Except Error Style :=
  match x.checkReady with
  | .error err => .error err
  | .ok () =>
    match Style.accelerator k.input width with
    | .error err => .error err
    | .ok s =>
      match x.checkLive output with
      | .error err => .error err
      | .ok () =>
        match x.checkInputs output.id inputs with
        | .error err => .error err
        | .ok () =>
          match k.check s output.length (inputs.map (·.length)) count with
          | .error err => .error err
          | .ok () => .ok s

/-- The span around a submission ends last, whatever comes of it. -/
def submit (x : Executor) (a : Ambient) (k : Kernel) (width : Nat) (output : Handle k.output)
    (inputs : List (Handle k.input)) (count : Nat) : Reply Unit :=
  match x.checkSubmit k width output inputs count with
  | .error err => x.refuse err
  | .ok s =>
    if count = 0 then ⟨x, .ok (), []⟩
    else
      let span := Trace.Span.configured a.settings s!"{backend}_submit:{k.name}"
      let reply := x.command s!"kernel:{k.name}"
        (kernelJob k s output.id (inputs.map (·.id)) count)
      let record := match reply.result with
        | .ok () => Trace.measured a.settings (.submission k.name backend count a.work)
        | .error _ => []
      { reply with events := reply.events ++ record ++ Trace.ended a.settings span a.span }

/-! ## host-visible memory in place -/

/-- all elements of a host-visible allocation -/
def readVisible (x : Executor) (h : Handle e) : Reply (List (Lane e)) :=
  match x.checkReady with
  | .error err => x.refuse err
  | .ok () =>
    match x.checkVisible h with
    | .error err => x.refuse err
    | .ok () => ⟨x, x.memory.view h.id e h.length, []⟩

/-- Changes the elements of a host-visible allocation.  What was written stays, even if the change
gives up half-way. -/
def updateVisible (x : Executor) (h : Handle e)
    (change : List (Lane e) → List (Lane e) × Outcome α) : Reply α :=
  match x.checkReady with
  | .error err => x.refuse err
  | .ok () =>
    match x.checkVisible h with
    | .error err => x.refuse err
    | .ok () =>
      match x.memory.find h.id with
      | .error err => x.refuse err
      | .ok allocation =>
        match allocation.view e h.length with
        | .error f => ⟨x, .error f, []⟩
        | .ok xs =>
          let (ys, result) := change xs
          let memory := x.memory.restore h.id (allocation.store (Slice.put xs 0 ys))
          ⟨{ x with memory := memory }, result, []⟩

/-! ## waiting and ending -/

/-- until every command so far has finished -/
def wait (x : Executor) : Reply Unit :=
  match x.checkReady with
  | .error err => x.refuse err
  | .ok () => x.command "wait" (.plain fun m => (.ok (), m))

/-- closes the queue and gives back all memory -/
def shutDown (x : Executor) : Executor × List Event :=
  let (allocations, bytes, memory) := x.memory.releaseAll
  let leaked := if 0 < allocations then [.allocationsLeaked x.id allocations bytes] else []
  ({ x with queue := x.queue.close, memory := memory, state := .tornDown },
    .workerExited :: leaked ++ [.acceleratorTornDown x.id x.device.name])

def teardown (x : Executor) : Reply Unit :=
  match x.state with
  | .tornDown => x.refuse .executorTornDown
  | _ => let (x, events) := x.shutDown; ⟨x, .ok (), events⟩

/-- what is logged when an executor goes away -/
def drop (x : Executor) : List Event :=
  match x.state with
  | .tornDown => []
  | _ => x.shutDown.2

end Executor

end Offload.Accelerator
