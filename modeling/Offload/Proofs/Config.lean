import Offload.Config
import Offload.Proofs.Text.Reading

/-!
# What environment variables ask for

Every field of a configuration is read from a variable of its own.

* `DeviceIs`, `SwitchIs`, `LimitIs`, `Text.IsList`
                          what a text says for a field;
* `Reads`                 what a variable says for a field, with the default where it is not set;
* `Offends`               a variable that is set and says nothing for its field;
* `Config.Asked`          field by field, the configuration that an environment asks for;
* `ofEnvironment_eq_ok_iff`, `ofEnvironment_eq_error`
                          that this is what is read, and that the first bad variable is the error.
-/

namespace Offload

/-! ## variables -/

namespace Environment

variable {env : Environment} {name s : String}

theorem nonblank?_eq_some_iff :
    env.nonblank? name = some s ↔ env.text? name = some s ∧ Text.Blank.text s = false := by
  unfold nonblank?
  rw [Option.filter_eq_some_iff, Bool.not_eq_true']

theorem nonblank?_eq_none_iff :
    env.nonblank? name = none ↔ ∀ s, env.text? name = some s → Text.Blank.text s = true := by
  unfold nonblank?
  rw [Option.filter_eq_none_iff]
  simp only [Bool.not_eq_true', Bool.not_eq_false]

theorem nonblank?_set_text (env : Environment) (name s other : String) :
    (env.set name s.toUTF8).nonblank? other =
      if other = name then if Text.Blank.text s then none else some s else env.nonblank? other := by
  unfold nonblank?
  rw [text?_set]
  by_cases h : other = name
  · rw [if_pos h, if_pos h]
    cases hs : Text.Blank.text s with
    | true => exact Option.filter_some_neg (by rw [hs]; rfl)
    | false => exact Option.filter_some_pos (by rw [hs]; rfl)
  · rw [if_neg h, if_neg h]

/-- What is no text counts as unset, and so does a blank one. -/
theorem nonblank?_set_of_blank {bytes : ByteArray}
    (h : ∀ s, Text.Utf8.decode? bytes = some s → Text.Blank.text s = true) (other : String) :
    (env.set name bytes).nonblank? other = (env.unset name).nonblank? other := by
  unfold nonblank? text? set unset
  dsimp only
  by_cases ho : other = name
  · rw [if_pos ho, if_pos ho]
    show (Text.Utf8.decode? bytes).filter _ = none
    rw [Option.filter_eq_none_iff]
    intro s hs
    rw [h s hs]
    exact fun h => nomatch h
  · rw [if_neg ho, if_neg ho]

end Environment

namespace Config

open Text

/-! ## texts -/

/-- the text names the device -/
def DeviceIs (s : String) : Accelerator.Selector → Prop
  | .emulator => IsWord ["emulator", "emu"] s
  | .hardware => IsWord ["hardware", "hw"] s

/-- the text says yes or no -/
def SwitchIs (s : String) : Bool → Prop
  | true => IsWord ["1", "true", "yes", "on"] s
  | false => IsWord ["0", "false", "no", "off"] s

/-- the text is that number, blanks around it apart -/
def LimitIs (s : String) (n : Nat) : Prop := Numeral.IsSize (Blank.trimmed s).toList n

/-- one of two answers by the word, or neither -/
theorem choice_eq_ok_iff {α : Type} {first second : List String} (apart : ∀ w ∈ first, w ∉ second)
    {a b c : α} {w : String} {err : Error} :
    (if w ∈ first then .ok a else if w ∈ second then .ok b else .error err : Except Error α) = .ok c ↔
      (w ∈ first ∧ a = c) ∨ (w ∈ second ∧ b = c) := by
  by_cases hf : w ∈ first
  · have hs : w ∉ second := apart w hf
    simp only [hf, hs, if_true, Except.ok.injEq, true_and, false_and, or_false]
  · by_cases hs : w ∈ second
    · simp only [hf, hs, if_true, if_false, Except.ok.injEq, true_and, false_and, false_or]
    · simp only [hf, hs, if_false, false_and, or_self, reduceCtorEq]

/-- a text as it is compared with words -/
def word (s : String) : String := Ascii.lower (Blank.trimmed s)

theorem parse_eq (s : String) : Accelerator.Selector.parse s =
    if word s ∈ ["emulator", "emu"] then .ok .emulator
    else if word s ∈ ["hardware", "hw"] then .ok .hardware
    else .error (.invalidConfig
      s!"unknown accelerator device '{word s}' (expected 'emulator' or 'hardware')") := by
  unfold Accelerator.Selector.parse word
  simp only [List.mem_cons, List.not_mem_nil, or_false]

theorem readSwitch_eq (s : String) : readSwitch s =
    if word s ∈ ["1", "true", "yes", "on"] then .ok true
    else if word s ∈ ["0", "false", "no", "off"] then .ok false
    else .error (.invalidConfig s!"{profilingVariable}='{word s}' is not a boolean") := rfl

theorem parse_eq_ok_iff {s : String} {d : Accelerator.Selector} :
    Accelerator.Selector.parse s = .ok d ↔ DeviceIs s d := by
  have hemulator : IsWord ["emulator", "emu"] s ↔ word s ∈ _ := isWord_iff (by decide)
  have hhardware : IsWord ["hardware", "hw"] s ↔ word s ∈ _ := isWord_iff (by decide)
  rw [parse_eq, choice_eq_ok_iff (by decide), ← hemulator, ← hhardware]
  cases d <;> simp only [DeviceIs, reduceCtorEq, and_true, and_false, or_false, false_or]

theorem readSwitch_eq_ok_iff {s : String} {b : Bool} : readSwitch s = .ok b ↔ SwitchIs s b := by
  have hyes : IsWord ["1", "true", "yes", "on"] s ↔ word s ∈ _ := isWord_iff (by decide)
  have hno : IsWord ["0", "false", "no", "off"] s ↔ word s ∈ _ := isWord_iff (by decide)
  rw [readSwitch_eq, choice_eq_ok_iff (by decide), ← hyes, ← hno]
  cases b <;> simp only [SwitchIs, reduceCtorEq, and_true, and_false, or_false, false_or]

theorem readLimit_eq_ok_iff {s : String} {n : Nat} : readLimit s = .ok n ↔ LimitIs s n := by
  unfold LimitIs
  rw [← Numeral.readChars_eq_ok_iff]
  unfold readLimit Numeral.read
  cases Numeral.readChars (Blank.trimmed s).toList with
  | ok m =>
    show (Except.ok m : Except Error Nat) = .ok n ↔ _
    rw [Except.ok.injEq, Except.ok.injEq]
  | error fault => exact ⟨fun h => (nomatch h), fun h => (nomatch h)⟩

theorem readFlags_eq_iff {s : String} {l : List String} : readFlags s = l ↔ IsList s l := by
  rw [isList_iff, eq_comm]
  rfl

example : readFlags " sse4.1, avx2,," = ["sse4.1", "avx2"] := by decide

/-! ## fields -/

/-- What a variable says for a field; not set, it is the default. -/
def Reads {α : Type} (R : String → α → Prop) (d : α) (value : Option String) (a : α) : Prop :=
  (value = none ∧ a = d) ∨ ∃ s, value = some s ∧ R s a

/-- It is set, but says nothing for the field. -/
def Offends {α : Type} (R : String → α → Prop) (value : Option String) : Prop :=
  ∃ s, value = some s ∧ ∀ a, ¬ R s a

/-- for a field that can be absent -/
def Given {α : Type} (R : String → α → Prop) (s : String) (o : Option α) : Prop := ∃ a, o = some a ∧ R s a

section
variable {α : Type} {R : String → α → Prop} {d a b : α} {f : String → Except Error α} {value : Option String}

theorem Reads.unique (hR : ∀ s a b, R s a → R s b → a = b) (h : Reads R d value a) (k : Reads R d value b) :
    a = b := by
  rcases h with ⟨hn, rfl⟩ | ⟨s, hs, ha⟩
  · rcases k with ⟨-, rfl⟩ | ⟨t, ht, -⟩
    · rfl
    · cases hn.symm.trans ht
  · rcases k with ⟨hn, -⟩ | ⟨t, ht, hb⟩
    · cases hn.symm.trans hs
    · cases hs.symm.trans ht
      exact hR s a b ha hb

theorem offends_given : Offends (Given R) value ↔ Offends R value := by
  refine exists_congr fun s => and_congr_right fun _ => ?_
  exact ⟨fun h a ha => h (some a) ⟨a, rfl, ha⟩, fun h o ⟨a, _, ha⟩ => h a ha⟩

theorem orDefault_some (d : α) (f : String → Except Error α) (s : String) : orDefault d f (some s) = f s := rfl

variable (hf : ∀ s a, f s = .ok a ↔ R s a)
include hf

theorem orDefault_eq_ok_iff : orDefault d f value = .ok a ↔ Reads R d value a := by
  cases value with
  | none =>
    show (Except.ok d : Except Error α) = .ok a ↔ _
    rw [Except.ok.injEq]
    constructor
    · exact fun h => .inl ⟨rfl, h.symm⟩
    · rintro (⟨-, rfl⟩ | ⟨s, hs, -⟩)
      · rfl
      · cases hs
  | some s =>
    show f s = .ok a ↔ _
    rw [hf]
    constructor
    · exact fun h => .inr ⟨s, rfl, h⟩
    · rintro (⟨hn, -⟩ | ⟨t, ht, h⟩)
      · cases hn
      · cases ht
        exact h

theorem offends_iff (d : α) : Offends R value ↔ ∃ err, orDefault d f value = .error err := by
  constructor
  · rintro ⟨s, rfl, hs⟩
    show ∃ err, f s = .error err
    cases h : f s with
    | ok a => exact absurd ((hf s a).mp h) (hs a)
    | error err => exact ⟨err, rfl⟩
  · rintro ⟨err, he⟩
    cases value with
    | none => cases he
    | some s => exact ⟨s, rfl, fun a ha => nomatch ((hf s a).mpr ha).symm.trans he⟩

end

/-- A limit is read where there is one. -/
def limitOf (s : String) : Except Error (Option Nat) := some <$> readLimit s

theorem limitOf_eq_ok_iff (s : String) (o : Option Nat) : limitOf s = .ok o ↔ Given LimitIs s o := by
  unfold limitOf Given
  cases h : readLimit s with
  | ok n =>
    show (Except.ok (some n) : Except Error (Option Nat)) = .ok o ↔ _
    rw [Except.ok.injEq]
    constructor
    · rintro rfl
      exact ⟨n, rfl, readLimit_eq_ok_iff.mp h⟩
    · rintro ⟨m, rfl, hm⟩
      cases h.symm.trans (readLimit_eq_ok_iff.mpr hm)
      rfl
  | error err =>
    refine ⟨fun h => (nomatch h), fun ⟨n, _, hn⟩ => ?_⟩
    cases h.symm.trans (readLimit_eq_ok_iff.mpr hn)

/-! ## configurations -/

/-- The configuration that an environment asks for, field by field, each told by its own variable. -/
structure Asked (env : Environment) (c : Config) : Prop where
  path : c.path = env.nonblank? pathVariable
  flags : Reads (Given IsList) none (env.nonblank? flagsVariable) c.flags
  device : Reads DeviceIs .emulator (env.nonblank? deviceVariable) c.accelerator.device
  profiling : Reads SwitchIs false (env.nonblank? profilingVariable) c.accelerator.profiling
  limit : Reads (Given LimitIs) none (env.nonblank? limitVariable) c.accelerator.limit
  capabilities : c.accelerator.capabilities = ⟨true, true⟩

theorem ofEnvironment_eq (env : Environment) : ofEnvironment env =
    match orDefault .emulator Accelerator.Selector.parse (env.nonblank? deviceVariable) with
    | .error err => .error err
    | .ok device =>
      match orDefault false readSwitch (env.nonblank? profilingVariable) with
      | .error err => .error err
      | .ok profiling =>
        match orDefault none limitOf (env.nonblank? limitVariable) with
        | .error err => .error err
        | .ok limit =>
          .ok ⟨env.nonblank? pathVariable, (env.nonblank? flagsVariable).map readFlags,
            ⟨device, profiling, ⟨true, true⟩, limit⟩⟩ := by
  unfold ofEnvironment
  cases orDefault .emulator Accelerator.Selector.parse (env.nonblank? deviceVariable) with
  | error err => rfl
  | ok device =>
    cases orDefault false readSwitch (env.nonblank? profilingVariable) with
    | error err => rfl
    | ok profiling =>
      show (orDefault none limitOf (env.nonblank? limitVariable) >>= _) = _
      cases orDefault none limitOf (env.nonblank? limitVariable) with
      | error err => rfl
      | ok limit => rfl

/-- What is read where there is something is what the text says. -/
theorem map_eq_iff {α : Type} {R : String → α → Prop} {f : String → α} (hf : ∀ s a, f s = a ↔ R s a)
    {value : Option String} {o : Option α} : value.map f = o ↔ Reads (Given R) none value o := by
  cases value with
  | none =>
    constructor
    · exact fun h => .inl ⟨rfl, h.symm⟩
    · rintro (⟨-, rfl⟩ | ⟨s, hs, -⟩)
      · rfl
      · cases hs
  | some s =>
    constructor
    · exact fun h => .inr ⟨s, rfl, f s, h.symm, (hf s _).mp rfl⟩
    · rintro (⟨hn, -⟩ | ⟨t, ht, a, rfl, ha⟩)
      · cases hn
      · cases ht
        exact congrArg some ((hf s a).mpr ha)

/-- A configuration is read exactly if it is what the environment asks for. -/
theorem ofEnvironment_eq_ok_iff {env : Environment} {c : Config} :
    ofEnvironment env = .ok c ↔ c.Asked env := by
  rw [ofEnvironment_eq]
  constructor
  · intro h
    cases hd : orDefault .emulator Accelerator.Selector.parse (env.nonblank? deviceVariable) with
    | error err =>
      rw [hd] at h
      cases h
    | ok device =>
      cases hp : orDefault false readSwitch (env.nonblank? profilingVariable) with
      | error err =>
        rw [hd, hp] at h
        cases h
      | ok profiling =>
        cases hl : orDefault none limitOf (env.nonblank? limitVariable) with
        | error err =>
          rw [hd, hp, hl] at h
          cases h
        | ok limit =>
          rw [hd, hp, hl] at h
          cases h
          exact ⟨rfl, (map_eq_iff fun _ _ => readFlags_eq_iff).mp rfl,
            (orDefault_eq_ok_iff fun _ _ => parse_eq_ok_iff).mp hd,
            (orDefault_eq_ok_iff fun _ _ => readSwitch_eq_ok_iff).mp hp,
            (orDefault_eq_ok_iff limitOf_eq_ok_iff).mp hl, rfl⟩
  · obtain ⟨path, flags, device, profiling, capabilities, limit⟩ := c
    rintro ⟨rfl, hf, hd, hp, hl, rfl⟩
    rw [(orDefault_eq_ok_iff fun _ _ => parse_eq_ok_iff).mpr hd,
      (orDefault_eq_ok_iff fun _ _ => readSwitch_eq_ok_iff).mpr hp,
      (orDefault_eq_ok_iff limitOf_eq_ok_iff).mpr hl,
      (map_eq_iff fun _ _ => readFlags_eq_iff).mpr hf]

/-! ## errors -/

theorem parse_eq_error {s : String} (h : ∀ d, ¬ DeviceIs s d) :
    Accelerator.Selector.parse s = .error (.invalidConfig
      s!"unknown accelerator device '{word s}' (expected 'emulator' or 'hardware')") := by
  have hemulator : word s ∉ ["emulator", "emu"] := mt (isWord_iff (by decide)).mpr (h .emulator)
  have hhardware : word s ∉ ["hardware", "hw"] := mt (isWord_iff (by decide)).mpr (h .hardware)
  rw [parse_eq, if_neg hemulator, if_neg hhardware]

theorem readSwitch_eq_error {s : String} (h : ∀ b, ¬ SwitchIs s b) :
    readSwitch s = .error (.invalidConfig s!"{profilingVariable}='{word s}' is not a boolean") := by
  have hyes : word s ∉ ["1", "true", "yes", "on"] := mt (isWord_iff (by decide)).mpr (h true)
  have hno : word s ∉ ["0", "false", "no", "off"] := mt (isWord_iff (by decide)).mpr (h false)
  rw [readSwitch_eq, if_neg hyes, if_neg hno]

theorem readLimit_eq_error {s : String} (h : ∀ n, ¬ LimitIs s n) :
    ∃ fault : Numeral.Fault,
      readLimit s = .error (.invalidConfig s!"{limitVariable}='{s}': {fault.message}") := by
  unfold readLimit
  cases hr : Numeral.read (Blank.trimmed s) with
  | ok n => exact absurd (Numeral.readChars_eq_ok_iff.mp hr) (h n)
  | error fault => exact ⟨fault, rfl⟩

section
variable {env : Environment}

/-- A variable that does not offend is read. -/
theorem exists_ok_of_not_offends {α : Type} {R : String → α → Prop} {f : String → Except Error α}
    (hf : ∀ s a, f s = .ok a ↔ R s a) (d : α) {value : Option String} (h : ¬ Offends R value) :
    ∃ a, orDefault d f value = .ok a := by
  cases ho : orDefault d f value with
  | ok a => exact ⟨a, rfl⟩
  | error err => exact absurd ((offends_iff hf d).mpr ⟨err, ho⟩) h

theorem ofEnvironment_of_device {s : String} (hs : env.nonblank? deviceVariable = some s)
    {err : Error} (h : Accelerator.Selector.parse s = .error err) : ofEnvironment env = .error err := by
  rw [ofEnvironment_eq, hs, orDefault_some, h]

theorem ofEnvironment_of_profiling (hd : ¬ Offends DeviceIs (env.nonblank? deviceVariable)) {s : String}
    (hs : env.nonblank? profilingVariable = some s) {err : Error} (h : readSwitch s = .error err) :
    ofEnvironment env = .error err := by
  obtain ⟨device, hdevice⟩ := exists_ok_of_not_offends (fun _ _ => parse_eq_ok_iff) .emulator hd
  rw [ofEnvironment_eq, hdevice, hs, orDefault_some, h]

theorem ofEnvironment_of_limit (hd : ¬ Offends DeviceIs (env.nonblank? deviceVariable))
    (hp : ¬ Offends SwitchIs (env.nonblank? profilingVariable)) {s : String}
    (hs : env.nonblank? limitVariable = some s) {err : Error} (h : readLimit s = .error err) :
    ofEnvironment env = .error err := by
  obtain ⟨device, hdevice⟩ := exists_ok_of_not_offends (fun _ _ => parse_eq_ok_iff) .emulator hd
  obtain ⟨profiling, hprofiling⟩ := exists_ok_of_not_offends (fun _ _ => readSwitch_eq_ok_iff) false hp
  have hlimit : limitOf s = .error err := by
    unfold limitOf
    rw [h]
    rfl
  rw [ofEnvironment_eq, hdevice, hprofiling, hs, orDefault_some, hlimit]

/-- There is an error exactly if one of the three variables that can offend does. -/
theorem exists_error_iff : (∃ err, ofEnvironment env = .error err) ↔
    Offends DeviceIs (env.nonblank? deviceVariable) ∨ Offends SwitchIs (env.nonblank? profilingVariable) ∨
      Offends LimitIs (env.nonblank? limitVariable) := by
  constructor
  · rintro ⟨err, he⟩
    by_contra hno
    rw [not_or, not_or] at hno
    obtain ⟨hd, hp, hl⟩ := hno
    obtain ⟨device, hdevice⟩ := exists_ok_of_not_offends (fun _ _ => parse_eq_ok_iff) .emulator hd
    obtain ⟨profiling, hprofiling⟩ := exists_ok_of_not_offends (fun _ _ => readSwitch_eq_ok_iff) false hp
    obtain ⟨limit, hlimit⟩ := exists_ok_of_not_offends limitOf_eq_ok_iff none (mt offends_given.mp hl)
    rw [ofEnvironment_eq, hdevice, hprofiling, hlimit] at he
    cases he
  · intro h
    by_cases hd : Offends DeviceIs (env.nonblank? deviceVariable)
    · obtain ⟨s, hs, hbad⟩ := hd
      exact ⟨_, ofEnvironment_of_device hs (parse_eq_error hbad)⟩
    · by_cases hp : Offends SwitchIs (env.nonblank? profilingVariable)
      · obtain ⟨s, hs, hbad⟩ := hp
        exact ⟨_, ofEnvironment_of_profiling hd hs (readSwitch_eq_error hbad)⟩
      · obtain ⟨s, hs, hbad⟩ := (h.resolve_left hd).resolve_left hp
        obtain ⟨fault, hfault⟩ := readLimit_eq_error hbad
        exact ⟨_, ofEnvironment_of_limit hd hp hs hfault⟩

end

/-! ## environments -/

section
variable {env env' : Environment} {c c' : Config}

/-- Only what variables say counts. -/
theorem ofEnvironment_congr (h : ∀ name, env.nonblank? name = env'.nonblank? name) :
    ofEnvironment env = ofEnvironment env' := by
  rw [ofEnvironment_eq, ofEnvironment_eq]
  simp only [h]

theorem deviceIs_unique (s : String) (d e : Accelerator.Selector) (h : DeviceIs s d) (k : DeviceIs s e) :
    d = e :=
  Except.ok.inj ((parse_eq_ok_iff.mpr h).symm.trans (parse_eq_ok_iff.mpr k))

theorem switchIs_unique (s : String) (a b : Bool) (h : SwitchIs s a) (k : SwitchIs s b) : a = b :=
  Except.ok.inj ((readSwitch_eq_ok_iff.mpr h).symm.trans (readSwitch_eq_ok_iff.mpr k))

theorem given_unique {α : Type} {R : String → α → Prop} (hR : ∀ s a b, R s a → R s b → a = b) (s : String)
    (o p : Option α) (h : Given R s o) (k : Given R s p) : o = p := by
  obtain ⟨a, rfl, ha⟩ := h
  obtain ⟨b, rfl, hb⟩ := k
  exact congrArg some (hR s a b ha hb)

theorem isList_unique (s : String) (l k : List String) (hl : IsList s l) (hk : IsList s k) : l = k :=
  (readFlags_eq_iff.mpr hl).symm.trans (readFlags_eq_iff.mpr hk)

theorem limitIs_unique (s : String) (m n : Nat) (hm : LimitIs s m) (hn : LimitIs s n) : m = n :=
  Except.ok.inj ((readLimit_eq_ok_iff.mpr hm).symm.trans (readLimit_eq_ok_iff.mpr hn))

/-- Each field is told by its variable alone. -/
theorem Asked.field (h : c.Asked env) (k : c'.Asked env') :
    (env'.nonblank? pathVariable = env.nonblank? pathVariable → c'.path = c.path) ∧
    (env'.nonblank? flagsVariable = env.nonblank? flagsVariable → c'.flags = c.flags) ∧
    (env'.nonblank? deviceVariable = env.nonblank? deviceVariable →
      c'.accelerator.device = c.accelerator.device) ∧
    (env'.nonblank? profilingVariable = env.nonblank? profilingVariable →
      c'.accelerator.profiling = c.accelerator.profiling) ∧
    (env'.nonblank? limitVariable = env.nonblank? limitVariable →
      c'.accelerator.limit = c.accelerator.limit) ∧
    c'.accelerator.capabilities = c.accelerator.capabilities := by
  refine ⟨fun he => ?_, fun he => ?_, fun he => ?_, fun he => ?_, fun he => ?_, ?_⟩
  · rw [k.path, he, h.path]
  · exact Reads.unique (given_unique isList_unique) (he ▸ k.flags) h.flags
  · exact Reads.unique deviceIs_unique (he ▸ k.device) h.device
  · exact Reads.unique switchIs_unique (he ▸ k.profiling) h.profiling
  · exact Reads.unique (given_unique limitIs_unique) (he ▸ k.limit) h.limit
  · rw [k.capabilities, h.capabilities]

/-- No list at all: there is no text. -/
theorem Asked.flags_eq_none_iff (h : c.Asked env) :
    c.flags = none ↔ env.nonblank? flagsVariable = none := by
  rcases h.flags with ⟨hs, hn⟩ | ⟨s, hs, l, hl, -⟩
  · exact iff_of_true hn hs
  · rw [hl, hs]
    exact iff_of_false (fun h => nomatch h) fun h => nomatch h

/-- An empty list: the text has commas, and blanks beside them. -/
theorem Asked.flags_eq_nil_iff (h : c.Asked env) : c.flags = some [] ↔
    ∃ s, env.text? flagsVariable = some s ∧ ',' ∈ s.toList ∧
      ∀ ch ∈ s.toList, ch = ',' ∨ Blank.char ch = true := by
  constructor
  · intro hnil
    rcases h.flags with ⟨-, hn⟩ | ⟨s, hs, l, hl, hlist⟩
    · cases hnil.symm.trans hn
    · cases hnil.symm.trans hl
      obtain ⟨htext, hblank⟩ := Environment.nonblank?_eq_some_iff.mp hs
      have hall := isList_nil_iff.mp hlist
      refine ⟨s, htext, ?_, hall⟩
      by_contra hcomma
      refine Bool.eq_false_iff.mp hblank (Blank.text_iff.mpr fun ch hch => ?_)
      refine (hall ch hch).resolve_left ?_
      rintro rfl
      exact hcomma hch
  · rintro ⟨s, htext, hcomma, hall⟩
    have hblank : Blank.text s = false := by
      refine Bool.eq_false_iff.mpr fun hb => ?_
      exact absurd (Blank.text_iff.mp hb ',' hcomma) (by decide)
    have hs := Environment.nonblank?_eq_some_iff.mpr ⟨htext, hblank⟩
    exact Reads.unique (given_unique isList_unique) h.flags
      (.inr ⟨s, hs, [], rfl, isList_nil_iff.mpr hall⟩)

/-- A list of flags with commas between them asks for the same again. -/
theorem Asked.set_flags (h : c.Asked env) {l : List String} (hl : c.flags = some l) (hne : l ≠ []) :
    c.Asked (env.set flagsVariable (",".intercalate l).toUTF8) := by
  have hlist : ∃ s, IsList s l := by
    rcases h.flags with ⟨-, hn⟩ | ⟨s, -, k, hk, hlist⟩
    · cases hl.symm.trans hn
    · cases hl.symm.trans hk
      exact ⟨s, hlist⟩
  obtain ⟨s, hlist⟩ := hlist
  have hflags : (env.set flagsVariable (",".intercalate l).toUTF8).nonblank? flagsVariable =
      some (",".intercalate l) := by
    rw [Environment.nonblank?_set_text, if_pos rfl, hlist.not_blank hne]
    rfl
  have hother {name : String} (hn : name ≠ flagsVariable) :
      (env.set flagsVariable (",".intercalate l).toUTF8).nonblank? name = env.nonblank? name := by
    rw [Environment.nonblank?_set_text, if_neg hn]
  refine ⟨?_, .inr ⟨_, hflags, l, hl, hlist.join hne⟩, ?_, ?_, ?_, h.capabilities⟩
  · rw [hother (by decide)]
    exact h.path
  · rw [hother (by decide)]
    exact h.device
  · rw [hother (by decide)]
    exact h.profiling
  · rw [hother (by decide)]
    exact h.limit

end

/-- **Configuration from environment variables.**  A value that is no text, or a blank one, counts as unset.
The configuration is what the environment asks for, field by field, each told by its own variable.  There is
an error exactly if a device, a switch or a limit is set to what is none, and then the first of these is the
error.  The path is the text as it stands.  Flags are absent where their variable is not set, and there are
none where the text is nothing but commas and blanks; a list of flags, with commas between them, asks for the
same configuration again. -/
theorem environment_read_exactly (env : Environment) :
    (∀ name bytes, (∀ s, Utf8.decode? bytes = some s → Blank.text s = true) →
      ofEnvironment (env.set name bytes) = ofEnvironment (env.unset name)) ∧
    (∀ c, ofEnvironment env = .ok c ↔ c.Asked env) ∧
    (∀ env' c c', ofEnvironment env = .ok c → ofEnvironment env' = .ok c' →
      (env'.nonblank? pathVariable = env.nonblank? pathVariable → c'.path = c.path) ∧
      (env'.nonblank? flagsVariable = env.nonblank? flagsVariable → c'.flags = c.flags) ∧
      (env'.nonblank? deviceVariable = env.nonblank? deviceVariable →
        c'.accelerator.device = c.accelerator.device) ∧
      (env'.nonblank? profilingVariable = env.nonblank? profilingVariable →
        c'.accelerator.profiling = c.accelerator.profiling) ∧
      (env'.nonblank? limitVariable = env.nonblank? limitVariable →
        c'.accelerator.limit = c.accelerator.limit) ∧
      c'.accelerator.capabilities = c.accelerator.capabilities) ∧
    ((∃ err, ofEnvironment env = .error err) ↔
      Offends DeviceIs (env.nonblank? deviceVariable) ∨
        Offends SwitchIs (env.nonblank? profilingVariable) ∨
        Offends LimitIs (env.nonblank? limitVariable)) ∧
    (∀ s, env.nonblank? deviceVariable = some s → (∀ d, ¬ DeviceIs s d) →
      ofEnvironment env = .error (.invalidConfig
        s!"unknown accelerator device '{word s}' (expected 'emulator' or 'hardware')")) ∧
    (¬ Offends DeviceIs (env.nonblank? deviceVariable) →
      (∀ s, env.nonblank? profilingVariable = some s → (∀ b, ¬ SwitchIs s b) →
        ofEnvironment env = .error (.invalidConfig s!"{profilingVariable}='{word s}' is not a boolean")) ∧
      (¬ Offends SwitchIs (env.nonblank? profilingVariable) →
        ∀ s, env.nonblank? limitVariable = some s → (∀ n, ¬ LimitIs s n) → ∃ fault : Numeral.Fault,
          ofEnvironment env = .error (.invalidConfig s!"{limitVariable}='{s}': {fault.message}"))) ∧
    ∀ c, ofEnvironment env = .ok c →
      (∀ s, c.path = some s ↔ env.text? pathVariable = some s ∧ Blank.text s = false) ∧
      (c.flags = none ↔ ∀ s, env.text? flagsVariable = some s → Blank.text s = true) ∧
      (c.flags = some [] ↔ ∃ s, env.text? flagsVariable = some s ∧ ',' ∈ s.toList ∧
        ∀ ch ∈ s.toList, ch = ',' ∨ Blank.char ch = true) ∧
      ∀ l, c.flags = some l → l ≠ [] →
        ofEnvironment (env.set flagsVariable (",".intercalate l).toUTF8) = .ok c := by
  refine ⟨fun name bytes hblank => ?_, fun c => ofEnvironment_eq_ok_iff, fun env' c c' h k => ?_,
    exists_error_iff, fun s hs hbad => ?_, fun hd => ⟨fun s hs hbad => ?_, fun hp s hs hbad => ?_⟩,
    fun c h => ?_⟩
  · exact ofEnvironment_congr fun other => Environment.nonblank?_set_of_blank hblank other
  · exact (ofEnvironment_eq_ok_iff.mp h).field (ofEnvironment_eq_ok_iff.mp k)
  · exact ofEnvironment_of_device hs (parse_eq_error hbad)
  · exact ofEnvironment_of_profiling hd hs (readSwitch_eq_error hbad)
  · obtain ⟨fault, hfault⟩ := readLimit_eq_error hbad
    exact ⟨fault, ofEnvironment_of_limit hd hp hs hfault⟩
  · have hasked := ofEnvironment_eq_ok_iff.mp h
    refine ⟨fun s => ?_, ?_, hasked.flags_eq_nil_iff, fun l hl hne => ?_⟩
    · rw [hasked.path]
      exact Environment.nonblank?_eq_some_iff
    · rw [hasked.flags_eq_none_iff]
      exact Environment.nonblank?_eq_none_iff
    · exact ofEnvironment_eq_ok_iff.mpr (hasked.set_flags hl hne)

end Config

end Offload
