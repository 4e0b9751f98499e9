import Offload.Environment
import Offload.Text.Ascii
import Offload.Text.Numeral
import Offload.Trace.Filter
import Offload.Trace.Performance

/-!
# Setting up the log

* `Setup`                 how entries are shown and whether performance is recorded, with presets.
                          That for work at a terminal, and what is made from it, depends on whether the
                          build checks assertions; a name without `Of` stands for a build that does;
* `Setup.ofEnvironment`   a preset changed by environment variables; values that make no sense are
                          passed over;
* `Setup.build`           the filter of a setup, read by some reader;
* `Session`               what is set up so far: the performance settings in force, and whether
                          a log is installed, which can happen only once;
* `Session.install`       installs a log.  Without a filter that can be used nothing changes; where
                          a log is installed already, the performance settings are applied all the
                          same.

A setup without a filter takes the one that its surroundings offer, and what makes sense of its own
`fallback` where that one is bad.
-/

namespace Offload.Trace

inductive SpanEvents where
  | none | close
  deriving DecidableEq, Repr

def SpanEvents.name : SpanEvents → String
  | none => "none"
  | close => "close"

inductive Output where
  | compact | pretty | json
  deriving DecidableEq, Repr

namespace Output

def name : Output → String
  | compact => "compact"
  | pretty => "pretty"
  | json => "json"

def all : List Output := [compact, pretty, json]

def ofName? (s : String) : Option Output := all.find? (·.name = s)

/-- Blanks around the text and the case of ASCII letters do not matter. -/
def read? (s : String) : Option Output := ofName? (Text.Ascii.lower (Text.Blank.trimmed s))

end Output

structure Setup where
  /-- the filter; absent, the one on offer is used -/
  directives : Option String
  fallback : String
  /-- whether entries show where they come from -/
  targets : Bool
  /-- whether output is coloured -/
  ansi : Bool
  spanEvents : SpanEvents
  output : Output
  performance : Bool
  /-- microseconds -/
  threshold : Option Nat
  deriving DecidableEq, Repr

namespace Setup

/-- for work at a terminal -/
def terminalOf (assertions : Bool) : Setup :=
  ⟨none, "info", true, true, .none, .pretty, assertions, none⟩

def terminal : Setup := terminalOf true

/-- for build servers -/
def ci : Setup := ⟨none, "info", true, false, .none, .json, false, none⟩

/-- for profiling -/
def profiling : Setup :=
  ⟨some "vectorhal_backends=debug,vectorhal_kernels=debug", "info", true, false, .close, .json, true,
    none⟩

/-- for tests -/
def quietOf (assertions : Bool) : Setup :=
  { terminalOf assertions with directives := some "warn", ansi := false, output := .compact }

/-! ## environment variables -/

def profileVariable : String := "VECTORHAL_TRACING_PROFILE"
def directivesVariable : String := "VECTORHAL_TRACING_DIRECTIVES"
def formatVariable : String := "VECTORHAL_TRACING_FORMAT"
def performanceVariable : String := "VECTORHAL_PERF_TRACING"
def thresholdVariable : String := "VECTORHAL_PERF_THRESHOLD_US"

/-- the preset of that name in letters of either case; any other name stands for local work -/
def presetOf (assertions : Bool) (name : Option String) : Setup :=
  match name.map Text.Ascii.lower with
  | some "ci" => ci
  | some "performance" => profiling
  | _ => terminalOf assertions

def preset (name : Option String) : Setup := presetOf true name

def withDirectives (s : Setup) : Option String → Setup
  | some text => if Text.Blank.text text then s else { s with directives := some text }
  | none => s

/-- The format for machines has no colours. -/
def withFormat (s : Setup) (text : Option String) : Setup :=
  match text >>= Output.read? with
  | some .json => { s with output := .json, ansi := false }
  | some output => { s with output := output }
  | none => s

/-- Anything but a word for yes means no. -/
def withPerformance (s : Setup) : Option String → Setup
  | some text =>
    { s with performance := Text.Ascii.same text "true" || text = "1" || Text.Ascii.same text "yes" }
  | none => s

def withThreshold (s : Setup) (text : Option String) : Setup :=
  match text.map Text.Numeral.read with
  | some (.ok n) => { s with threshold := some n }
  | _ => s

def ofEnvironmentOf (assertions : Bool) (env : Environment) : Setup :=
  ((((presetOf assertions (env.text? profileVariable)).withDirectives
    (env.text? directivesVariable)).withFormat (env.text? formatVariable)).withPerformance
    (env.text? performanceVariable)).withThreshold (env.text? thresholdVariable)

def ofEnvironment (env : Environment) : Setup := ofEnvironmentOf true env

/-- the performance settings that are asked for -/
def settings (s : Setup) : Settings := .configure s.performance s.threshold

end Setup

/-! ## installing -/

inductive SetupError where
  /-- what the reader of filters says -/
  | invalidFilter (fault : String)
  /-- a log is installed already -/
  | installed
  deriving DecidableEq, Repr

def SetupError.name : SetupError → String
  | invalidFilter _ => "InvalidFilter"
  | installed => "SubscriberInit"

def SetupError.message : SetupError → String
  | invalidFilter fault => s!"invalid tracing directive: {fault}"
  | installed => "failed to install global tracing subscriber: " ++
      "a global default trace dispatcher has already been set"

/-- whether the error was caused by another one -/
def SetupError.hasCause : SetupError → Bool
  | invalidFilter _ => false
  | installed => true

namespace Setup

variable {φ : Type} (r : Reader φ)

/-- The filter of the setup itself can be refused; one on offer is only passed over. -/
def build (s : Setup) (offered : Option String) : Except (Failure SetupError) φ :=
  match s.directives with
  | some text =>
    match r.strict text with
    | .ok f => .ok f
    | .error (.error fault) => .error (.error (.invalidFilter fault))
    | .error (.crash c) => .error (.crash c)
  | none =>
    match offered.map r.strict with
    | some (.ok f) => .ok f
    | some (.error (.crash c)) => .error (.crash c)
    | _ =>
      match r.lenient s.fallback with
      | .ok f => .ok f
      | .error c => .error (.crash c)

end Setup

structure Session where
  settings : Settings
  installed : Bool
  deriving DecidableEq, Repr

namespace Session

def apply (p : Session) (s : Setup) : Session := { p with settings := s.settings }

variable {φ : Type} (r : Reader φ)

def install (p : Session) (s : Setup) (offered : Option String) :
    Except (Failure SetupError) Unit × Session :=
  match s.build r offered with
  | .error e => (.error e, p)
  | .ok _ =>
    if p.installed then (.error (.error .installed), p.apply s)
    else (.ok (), { p.apply s with installed := true })

/-- Whether a log was installed before does not matter. -/
def installForTests (assertions : Bool) (p : Session) : Session :=
  (p.install r (.quietOf assertions) none).2

end Session

end Offload.Trace
