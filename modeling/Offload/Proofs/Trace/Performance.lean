import Offload.Directive.Reader
import Offload.Registry
import Offload.Trace.Event
import Offload.Trace.Setup

/-!
# Performance settings over time

A process changes its settings, measures its work and holds spans open; settings are looked at when a
measurement is recorded, and of a span once when it is made and once more when it ends.

* `Program`                 what a process is an instance of: the reader of filters is not known;
* `Act`, `Process.perform`  what a process can do, and what it leaves behind;
* `Act.Asks`                what an act asks for.  A log whose filter is bad asks for nothing, one that comes
                            too late still asks;
* `settings_of_asks`, `settings_of_silent`  whatever was asked for last holds, and nothing else changes the
                            settings;
* `find?_run`               a span stays as it was made until it ends;
* `last_asked_settings_rule`  so both settings together tell all records.
-/

namespace Offload.Trace

namespace Settings

/-- whether work of that duration is recorded, as it can be told from the two settings -/
def Notes (enabled : Bool) (threshold : Option Nat) (us : Nat) : Prop :=
  enabled = true ∧ ∀ t ∈ threshold, t ≤ us

theorem threshold?_configure (enabled : Bool) (threshold : Option Nat) :
    (configure enabled threshold).threshold? = threshold.filter (0 < ·) := by
  unfold configure threshold?
  cases threshold with
  | none => rfl
  | some t =>
    rw [Option.getD_some]
    by_cases ht : t = 0
    · rw [if_pos ht, ht]
      rfl
    · rw [if_neg ht, Option.filter_some_pos (by simpa using Nat.pos_of_ne_zero ht)]

/-- A threshold of zero is reached by everything, and so is none. -/
theorem forall_threshold?_le_iff (s : Settings) (us : Nat) :
    (∀ t ∈ s.threshold?, t ≤ us) ↔ s.threshold ≤ us := by
  unfold threshold?
  by_cases ht : s.threshold = 0
  · rw [if_pos ht, ht]
    exact iff_of_true (fun _ h => nomatch h) (Nat.zero_le us)
  · rw [if_neg ht]
    exact ⟨fun h => h _ rfl, fun h _ ht => Option.some.inj ht ▸ h⟩

theorem records_iff_notes (s : Settings) (us : Nat) :
    s.records us = true ↔ Notes s.enabled s.threshold? us := by
  rw [records_iff, Notes, forall_threshold?_le_iff]

end Settings

theorem Span.records_iff {span : Span} {s : Settings} {us : Nat} :
    span.records s us = true ↔ Settings.Notes s.enabled span.threshold us := by
  unfold Span.records Settings.Notes
  rw [Bool.and_eq_true, Option.all_eq_true]
  simp only [decide_eq_true_eq, Option.mem_def]

/-! ## processes -/

/-- what a process is an instance of -/
structure Program (φ : Type) where
  /-- the library that reads filters -/
  reader : Reader φ
  /-- whether the build checks assertions -/
  assertions : Bool

/-- what a process can do about its log and its records; durations are in microseconds -/
inductive Act where
  | configure (enabled : Bool) (threshold : Option Nat)
  | apply (s : Setup)
  /-- with the filter that the surroundings offer -/
  | install (s : Setup) (offered : Option String)
  | installForTests
  | record (m : Measure)
  | openSpan (span : Span)
  /-- with the threshold in force -/
  | openConfigured (name : String)
  /-- the span of that number, after that time -/
  | closeSpan (number us : Nat)

/-- the settings in force and the spans that are open, numbered as they were made -/
structure Process where
  session : Session
  spans : Registry Span
  nextSpan : Nat

/-- what an act leaves behind -/
structure Report where
  process : Process
  result : Except (Failure SetupError) Unit
  events : List Event

namespace Process

/-- a process that has done nothing yet; a log may be installed already -/
def start (installed : Bool) : Process := ⟨⟨.initial, installed⟩, .empty, 0⟩

abbrev settings (p : Process) : Settings := p.session.settings

def opened (p : Process) (span : Span) : Process :=
  { p with spans := p.spans.insert p.nextSpan span, nextSpan := p.nextSpan + 1 }

/-- The end of a span that is not open is nothing. -/
def close (p : Process) (number us : Nat) : Report :=
  match p.spans.find? number with
  | none => ⟨p, .ok (), []⟩
  | some span => ⟨{ p with spans := p.spans.erase number }, .ok (), ended p.settings span us⟩

variable {φ : Type} (g : Program φ)

def perform (p : Process) : Act → Report
  | .configure enabled threshold =>
    ⟨{ p with session := { p.session with settings := .configure enabled threshold } }, .ok (), []⟩
  | .apply s => ⟨{ p with session := p.session.apply s }, .ok (), []⟩
  | .install s offered =>
    let (result, session) := p.session.install g.reader s offered
    ⟨{ p with session := session }, result, []⟩
  | .installForTests => ⟨{ p with session := p.session.installForTests g.reader g.assertions }, .ok (), []⟩
  | .record m => ⟨p, .ok (), measured p.settings m⟩
  | .openSpan span => ⟨p.opened span, .ok (), []⟩
  | .openConfigured name => ⟨p.opened (.configured p.settings name), .ok (), []⟩
  | .closeSpan number us => p.close number us

def run (p : Process) (acts : List Act) : Process := acts.foldl (fun q a => (q.perform g a).process) p

theorem run_cons (p : Process) (a : Act) (acts : List Act) :
    p.run g (a :: acts) = (p.perform g a).process.run g acts := rfl

theorem run_append (p : Process) (acts more : List Act) :
    p.run g (acts ++ more) = (p.run g acts).run g more := List.foldl_append

end Process

section
variable {φ : Type} (g : Program φ)

/-- what an act asks for -/
inductive Act.Asks : Act → Bool → Option Nat → Prop
  | configure (enabled : Bool) (threshold : Option Nat) : Asks (.configure enabled threshold) enabled threshold
  | apply (s : Setup) : Asks (.apply s) s.performance s.threshold
  | install (s : Setup) (offered : Option String) {f : φ} :
    s.build g.reader offered = .ok f → Asks (.install s offered) s.performance s.threshold
  | installForTests : Asks .installForTests g.assertions none

/-- The act asks for nothing. -/
def Act.Silent (a : Act) : Prop := ∀ enabled threshold, ¬ a.Asks g enabled threshold

end

/-! ## installing -/

theorem Setup.build_of_directives {φ : Type} {r : Reader φ} {s : Setup} {text : String} {f : φ}
    {offered : Option String} (hd : s.directives = some text) (h : r.strict text = .ok f) :
    s.build r offered = .ok f := by
  unfold build
  rw [hd]
  dsimp only
  rw [h]

namespace Session

variable {φ : Type} {r : Reader φ} (p : Session) {s : Setup} {offered : Option String}

theorem settings_install {f : φ} (h : s.build r offered = .ok f) :
    (p.install r s offered).2.settings = .configure s.performance s.threshold := by
  unfold install
  rw [h]
  dsimp only
  split <;> rfl

/-- Without a filter nothing is done, whether its text was refused or its reader crashed. -/
theorem install_of_error {e : Failure SetupError} (h : s.build r offered = .error e) :
    p.install r s offered = (.error e, p) := by
  unfold install
  rw [h]

theorem install_of_installed {f : φ} (h : s.build r offered = .ok f) (hp : p.installed = true) :
    p.install r s offered = (.error (.error .installed), p.apply s) := by
  unfold install
  rw [h]
  exact if_pos hp

theorem installed_install (hp : p.installed = true) : (p.install r s offered).2.installed = true := by
  unfold install
  split
  · exact hp
  · rw [if_pos hp]
    exact hp

theorem settings_installForTests (hwarn : r.Accepts "warn") (assertions : Bool) :
    (p.installForTests r assertions).settings = .configure assertions none := by
  obtain ⟨f, hf⟩ := hwarn
  exact p.settings_install (Setup.build_of_directives rfl hf)

end Session

namespace Process

variable {φ : Type} {g : Program φ} (p : Process)

theorem session_close (number us : Nat) : (p.close number us).process.session = p.session := by
  unfold close
  split <;> rfl

theorem nextSpan_close (number us : Nat) : (p.close number us).process.nextSpan = p.nextSpan := by
  unfold close
  split <;> rfl

/-! ## settings -/

theorem settings_perform_of_asks (hwarn : g.reader.Accepts "warn") {a : Act} {enabled : Bool}
    {threshold : Option Nat} (h : a.Asks g enabled threshold) :
    (p.perform g a).process.settings = .configure enabled threshold := by
  cases h with
  | configure => rfl
  | apply => rfl
  | install s offered hb => exact p.session.settings_install hb
  | installForTests => exact p.session.settings_installForTests hwarn g.assertions

theorem settings_perform_of_silent {a : Act} (h : a.Silent g) :
    (p.perform g a).process.settings = p.settings := by
  cases a with
  | configure enabled threshold => exact absurd (.configure ..) (h enabled threshold)
  | apply s => exact absurd (.apply s) (h _ _)
  | install s offered =>
    cases hb : s.build g.reader offered with
    | ok f => exact absurd (.install s offered hb) (h _ _)
    | error e => exact congrArg (·.2.settings) (p.session.install_of_error hb)
  | installForTests => exact absurd .installForTests (h _ _)
  | record m => rfl
  | openSpan span => rfl
  | openConfigured name => rfl
  | closeSpan number us => exact congrArg Session.settings (p.session_close number us)

theorem settings_run_of_silent {acts : List Act} (h : ∀ a ∈ acts, a.Silent g) :
    (p.run g acts).settings = p.settings := by
  induction acts generalizing p with
  | nil => rfl
  | cons a acts ih =>
    obtain ⟨ha, hacts⟩ := List.forall_mem_cons.mp h
    rw [run_cons, ih _ hacts, p.settings_perform_of_silent ha]

/-- What was asked for last holds. -/
theorem settings_run_of_asks (hwarn : g.reader.Accepts "warn") {a : Act} {enabled : Bool}
    {threshold : Option Nat} (h : a.Asks g enabled threshold) (before : List Act) {after : List Act}
    (hs : ∀ b ∈ after, b.Silent g) :
    (p.run g (before ++ a :: after)).settings = .configure enabled threshold := by
  rw [run_append, run_cons, settings_run_of_silent _ hs, settings_perform_of_asks _ hwarn h]

theorem installed_run (h : p.session.installed = true) (acts : List Act) :
    (p.run g acts).session.installed = true := by
  induction acts generalizing p with
  | nil => exact h
  | cons a acts ih =>
    refine ih _ ?_
    cases a with
    | install s offered => exact p.session.installed_install h
    | installForTests => exact p.session.installed_install h
    | closeSpan number us => exact (congrArg Session.installed (p.session_close number us)).trans h
    | _ => exact h

/-! ## spans -/

theorem le_nextSpan_perform (a : Act) : p.nextSpan ≤ (p.perform g a).process.nextSpan := by
  cases a with
  | openSpan span => exact Nat.le_succ _
  | openConfigured name => exact Nat.le_succ _
  | closeSpan number us => exact Nat.le_of_eq (p.nextSpan_close number us).symm
  | _ => exact Nat.le_refl _

theorem find?_opened {n : Nat} (hn : n < p.nextSpan) (span : Span) :
    (p.opened span).spans.find? n = p.spans.find? n := by
  unfold opened
  rw [Registry.find?_insert, if_neg (Nat.ne_of_lt hn)]

/-- Only its own end takes a span away, and no other span gets its number. -/
theorem find?_perform {a : Act} {n : Nat} (hn : n < p.nextSpan) (ha : ∀ us, a ≠ .closeSpan n us) :
    (p.perform g a).process.spans.find? n = p.spans.find? n := by
  cases a with
  | openSpan span => exact p.find?_opened hn span
  | openConfigured name => exact p.find?_opened hn _
  | closeSpan number us =>
    have hne : n ≠ number := fun h => ha us (h ▸ rfl)
    show (p.close number us).process.spans.find? n = _
    unfold close
    split
    · rfl
    · exact (Registry.find?_erase ..).trans (if_neg hne)
  | _ => rfl

theorem find?_run {acts : List Act} {n : Nat} (hn : n < p.nextSpan)
    (ha : ∀ a ∈ acts, ∀ us, a ≠ .closeSpan n us) : (p.run g acts).spans.find? n = p.spans.find? n := by
  induction acts generalizing p with
  | nil => rfl
  | cons a acts ih =>
    obtain ⟨ha, hacts⟩ := List.forall_mem_cons.mp ha
    rw [run_cons, ih _ (Nat.lt_of_lt_of_le hn (p.le_nextSpan_perform a)) hacts, p.find?_perform hn ha]

/-! ## events -/

theorem events_record (m : Measure) : (p.perform g (.record m)).events =
    if p.settings.records m.duration then [.measure m] else [] := rfl

/-- A span that was made before ends with the threshold that it was made with. -/
theorem events_closeSpan (span : Span) {later : List Act}
    (hl : ∀ a ∈ later, ∀ us, a ≠ .closeSpan p.nextSpan us) (us : Nat) :
    let q := (p.opened span).run g later
    (q.perform g (.closeSpan p.nextSpan us)).events =
      if span.records q.settings us then [.spanEnded us] else [] := by
  intro q
  have hfind : q.spans.find? p.nextSpan = some span := by
    rw [find?_run _ (Nat.lt_succ_self p.nextSpan) hl]
    exact (Registry.find?_insert ..).trans (if_pos rfl)
  show (q.close p.nextSpan us).events = _
  unfold close
  rw [hfind]
  rfl

end Process

/-- **The settings that were asked for last rule all records.**  At every point of every run the settings are
those of the last act that asked for some, where a threshold of zero is none, and to begin with everything is
recorded.  A log whose filter is bad changes nothing; where a log is installed already, another one is refused
but its settings hold.  A measurement leaves one event exactly where records are on and it took as long as the
threshold in force asks, a span exactly where records are on when it ends and it took as long as the threshold
asked when it was made.  Under the settings that it was made with, a span is therefore recorded exactly where a
measurement of the same duration is.  All this holds whatever library reads the filters, if it takes the name
of a level for one. -/
theorem last_asked_settings_rule {φ : Type} (g : Program φ) (hwarn : g.reader.Accepts "warn") (installed : Bool)
    (acts : List Act) :
    let p := (Process.start installed).run g acts
    (∀ before a after enabled threshold, acts = before ++ a :: after → a.Asks g enabled threshold →
      (∀ b ∈ after, b.Silent g) →
        p.settings.enabled = enabled ∧ p.settings.threshold? = threshold.filter (0 < ·)) ∧
    ((∀ a ∈ acts, a.Silent g) → p.settings.enabled = true ∧ p.settings.threshold? = none) ∧
    (∀ s offered e, s.build g.reader offered = .error e →
      p.perform g (.install s offered) = ⟨p, .error e, []⟩) ∧
    (installed = true → p.session.installed = true) ∧
    (p.session.installed = true → ∀ s offered f, s.build g.reader offered = .ok f →
      let r := p.perform g (.install s offered)
      r.result = .error (.error .installed) ∧ r.process.settings = .configure s.performance s.threshold) ∧
    (∀ m, let r := p.perform g (.record m)
      (Settings.Notes p.settings.enabled p.settings.threshold? m.duration → r.events = [.measure m]) ∧
      (¬ Settings.Notes p.settings.enabled p.settings.threshold? m.duration → r.events = [])) ∧
    ∀ name later us, (∀ b ∈ later, ∀ t, b ≠ .closeSpan p.nextSpan t) →
      let q := (p.perform g (.openConfigured name)).process.run g later
      let r := q.perform g (.closeSpan p.nextSpan us)
      (Settings.Notes q.settings.enabled p.settings.threshold? us → r.events = [.spanEnded us]) ∧
      (¬ Settings.Notes q.settings.enabled p.settings.threshold? us → r.events = []) ∧
      (q.settings = p.settings → ∀ m : Measure, m.duration = us →
        (r.events ≠ [] ↔ (q.perform g (.record m)).events ≠ [])) := by
  intro p
  refine ⟨?_, ?_, ?_, fun hi => Process.installed_run _ hi acts, ?_, fun m => ?_, ?_⟩
  · rintro before a after enabled threshold rfl ha hs
    have hp : p.settings = .configure enabled threshold := Process.settings_run_of_asks _ hwarn ha before hs
    rw [hp]
    exact ⟨rfl, Settings.threshold?_configure enabled threshold⟩
  · intro hs
    have hp : p.settings = .initial := Process.settings_run_of_silent _ hs
    rw [hp]
    exact ⟨rfl, rfl⟩
  · intro s offered e he
    show Report.mk { p with session := (p.session.install g.reader s offered).2 }
      (p.session.install g.reader s offered).1 [] = _
    rw [p.session.install_of_error he]
  · intro hp s offered f hb
    exact ⟨congrArg Prod.fst (p.session.install_of_installed hb hp), p.session.settings_install hb⟩
  · rw [← Settings.records_iff_notes]
    exact ⟨fun h => if_pos h, fun h => if_neg h⟩
  · intro name later us hl q r
    have hr : r.events = if Span.records _ q.settings us then [.spanEnded us] else [] :=
      p.events_closeSpan (.configured p.settings name) hl us
    have hnotes : Span.records (.configured p.settings name) q.settings us = true ↔
        Settings.Notes q.settings.enabled p.settings.threshold? us := Span.records_iff
    rw [← hnotes]
    refine ⟨fun h => hr.trans (if_pos h), fun h => hr.trans (if_neg h), fun hsame m hm => ?_⟩
    have hrecord : Span.records (.configured p.settings name) q.settings us = true ↔
        q.settings.records m.duration = true := by
      rw [hnotes, Settings.records_iff_notes, hsame, hm]
    rw [hr, Process.events_record]
    simp only [hrecord]
    split <;> simp

/-- With a reader that is known: a span is made under a threshold of five and ends under one of nine; a bad
filter is refused and a fallback cut through a character crashes its reader, and neither changes the
settings. -/
theorem last_asked_settings_rule_reader :
    let g : Program (List Directive) := ⟨Directive.reader, true⟩
    let s : Setup := { Setup.ci with directives := some "a[s=info" }
    let t : Setup := { Setup.ci with fallback := " é=info" }
    let p := (Process.start true).run g [.installForTests, .configure true (some 5)]
    let q := (p.perform g (.openConfigured "a")).process.run g [.configure true (some 9)]
    g.reader.Accepts "warn" ∧ p.session.installed = true ∧ p.settings.threshold? = some 5 ∧
      p.perform g (.install s none) =
        ⟨p, .error (.error (.invalidFilter "invalid filter directive")), []⟩ ∧
      p.perform g (.install t none) = ⟨p, .error (.crash (.insideCharacter 2)), []⟩ ∧
      (p.perform g (.install Setup.ci none)).result = .error (.error .installed) ∧
      (q.perform g (.closeSpan p.nextSpan 7)).events = [.spanEnded 7] ∧
      (p.perform g (.record (.transfer 1 "H2D" 4))).events = [] := by
  intro g s t p q
  have hwarn : g.reader.Accepts "warn" := ⟨_, rfl⟩
  have hrefused : Directive.reader.strict "a[s=info" = .error (.error "invalid filter directive") := rfl
  have hs : s.build g.reader none = .error (.error (.invalidFilter "invalid filter directive")) := by
    simp only [Setup.build, s, g, hrefused]
  have hcut : Directive.reader.lenient " é=info" = .error (.insideCharacter 2) := rfl
  have ht : t.build g.reader none = .error (.crash (.insideCharacter 2)) := by
    simp only [Setup.build, Setup.ci, t, g, Option.map_none, hcut]
  have hci : Setup.ci.build g.reader none = .ok [⟨none, none, none, 3⟩] := rfl
  obtain ⟨hasked, -, hbad, hstays, htwice, hrecord, hspan⟩ := last_asked_settings_rule g hwarn true
    [.installForTests, .configure true (some 5)]
  obtain ⟨-, hthreshold⟩ := hasked [.installForTests] (.configure true (some 5)) [] _ _ rfl (.configure ..) nofun
  have hclosed := (hspan "a" [.configure true (some 9)] 7 (by simp)).1
  have hmade : Settings.Notes q.settings.enabled p.settings.threshold? 7 :=
    (Settings.records_iff_notes (.configure true (some 5)) 7).mp rfl
  have hshort : ¬ Settings.Notes p.settings.enabled p.settings.threshold? 4 := fun h =>
    absurd ((Settings.records_iff_notes (.configure true (some 5)) 4).mpr h) (by decide)
  exact ⟨hwarn, hstays rfl, hthreshold, hbad s none _ hs, hbad t none _ ht,
    (htwice (hstays rfl) Setup.ci none _ hci).1, hclosed hmade, (hrecord _).2 hshort⟩

end Offload.Trace
