import Offload.Proofs.Accelerator.Queue

/-!
# Steps of an exchange

Callers and a worker take turns in any way.  Some acts are orders: a command is handed in, or the queue is
closed.  All others the two sides do of themselves.

* `Comes`      where some orders can lead to, whatever is done in between;
* `Works`      what the worker can do next, in eight cases;
* `taken_run`  what a caller has got is never changed;
* `Settles`    what holds wherever the two sides come to a stop, and that they do.  Every step that is
               no order leaves less to be done (`toil_lt`), so what every step keeps holds in the end
               (`Settles.of_invariant`).
-/

namespace Offload.Accelerator.Exchange

variable {x y : Exchange}

/-- An act is an order, or what the two sides do of themselves. -/
def Act.order? : Act → Option Order
  | submit c => some (.command c)
  | close => some .close
  | collect _ | join | work => none

/-- The exchange can come to this from its start, by these orders and no others, whatever its two sides did
in between. -/
def Comes (profiling : Bool) (m : Memory) (os : List Order) (x : Exchange) : Prop :=
  ∃ acts, (start profiling m).run? acts = some x ∧ acts.filterMap Act.order? = os

theorem run?_append (acts more : List Act) : x.run? (acts ++ more) = (x.run? acts).bind (·.run? more) := by
  induction acts generalizing x with
  | nil => rfl
  | cons a acts ih =>
    show (x.step? a).bind (·.run? (acts ++ more)) = ((x.step? a).bind (·.run? acts)).bind (·.run? more)
    rw [Option.bind_assoc]
    exact congrArg _ (funext fun z => ih)

theorem Comes.run {profiling : Bool} {m : Memory} {os : List Order} {acts : List Act}
    (h : Comes profiling m os x) (hy : x.run? acts = some y) :
    Comes profiling m (os ++ acts.filterMap Act.order?) y := by
  obtain ⟨before, hx, rfl⟩ := h
  refine ⟨before ++ acts, ?_, List.filterMap_append⟩
  rw [run?_append, hx]
  exact hy

/-! ## slips -/

section
variable (slips : List Slip)

theorem commands_modify (i : Nat) (f : Response → Response) :
    (slips.modify i (.respond f)).map (·.command) = slips.map (·.command) := by
  induction slips generalizing i with
  | nil => rw [List.modify_nil]
  | cons s slips ih =>
    cases i with
    | zero => rfl
    | succ i => exact congrArg (s.command :: ·) (ih i)

theorem commands_drop (ms : List Message) :
    (ms.foldl Message.drop slips).map (·.command) = slips.map (·.command) := by
  induction ms generalizing slips with
  | nil => rfl
  | cons msg ms ih =>
    rw [List.foldl_cons, ih]
    cases msg with
    | run c i => exact commands_modify slips i _
    | shutdown => rfl

/-- Every response that is thrown away with a message comes to nothing, and no other changes. -/
theorem getElem?_drop (ms : List Message) {i : Nat} {s : Slip}
    (h : (ms.foldl Message.drop slips)[i]? = some s) :
    ∃ t, slips[i]? = some t ∧
      (s = t ∧ (∀ c, Message.run c i ∉ ms) ∨ s = t.respond .hangUp ∧ ∃ c, Message.run c i ∈ ms) := by
  induction ms generalizing slips with
  | nil => exact ⟨s, h, .inl ⟨rfl, fun c hc => nomatch hc⟩⟩
  | cons msg ms ih =>
    obtain ⟨t, ht, hs⟩ := ih _ h
    cases msg with
    | shutdown =>
      refine ⟨t, ht, hs.imp (fun ⟨hs, hms⟩ => ⟨hs, fun c hc => ?_⟩) fun ⟨hs, c, hc⟩ => ⟨hs, c, .tail _ hc⟩⟩
      cases hc with
      | tail _ hc => exact hms c hc
    | run b j =>
      rw [Message.drop, List.getElem?_modify] at ht
      obtain ⟨u, hu, rfl⟩ := Option.map_eq_some_iff.mp ht
      refine ⟨u, hu, ?_⟩
      by_cases hij : j = i
      · subst hij
        rw [if_pos rfl] at hs
        refine .inr ⟨?_, b, .head _⟩
        rcases hs with ⟨hs, -⟩ | ⟨hs, -⟩
        · exact hs
        · rw [hs]
          obtain ⟨c, response⟩ := u
          cases response <;> rfl
      · rw [if_neg hij] at hs
        refine hs.imp (fun ⟨hs, hms⟩ => ⟨hs, fun c hc => ?_⟩) fun ⟨hs, c, hc⟩ => ⟨hs, c, .tail _ hc⟩
        cases hc with
        | head => exact hij rfl
        | tail _ hc => exact hms c hc

theorem getElem?_concat_cases {u s : Slip} {i : Nat} (h : (slips ++ [u])[i]? = some s) :
    slips[i]? = some s ∨ i = slips.length ∧ s = u := by
  rcases Nat.lt_or_ge i slips.length with hlt | hge
  · exact .inl ((List.getElem?_append_left hlt).symm.trans h)
  · have hlen := (List.getElem?_eq_some_iff.mp h).1
    rw [List.length_append, List.length_singleton] at hlen
    obtain rfl : i = slips.length := Nat.le_antisymm (Nat.le_of_lt_succ hlen) hge
    exact .inr ⟨rfl, (Option.some.inj (List.getElem?_concat_length.symm.trans h)).symm⟩

theorem getElem?_set_cases {s t : Slip} {i j : Nat} (h : (slips.set i t)[j]? = some s) :
    slips[j]? = some s ∨ j = i ∧ s = t := by
  rw [List.getElem?_set] at h
  split at h
  · rename_i hij
    split at h
    · exact .inr ⟨hij.symm, (Option.some.inj h).symm⟩
    · nomatch h
  · exact .inl h

theorem commands_set {i : Nat} {s t : Slip} (hs : slips[i]? = some s) (ht : t.command = s.command) :
    (slips.set i t).map (·.command) = slips.map (·.command) := by
  obtain ⟨hi, rfl⟩ := List.getElem?_eq_some_iff.mp hs
  have hsame : slips.map (·.command) = (slips.set i slips[i]).map (·.command) := by
    rw [List.set_getElem_self]
  rw [hsame, List.map_set, List.map_set, ht]

end

namespace Slip

variable {s : Slip} {r : Receipt}

theorem collect?_of_sent (h : s.response = .sent r) : s.collect? = some ⟨s.command, .taken r⟩ := by
  obtain ⟨c, response⟩ := s
  cases h
  rfl

theorem collect?_of_hungUp (h : s.response = .hungUp) : s.collect? =
    some ⟨s.command, .taken (s.command.lost s!"no completion for '{s.command.label}'")⟩ := by
  obtain ⟨c, response⟩ := s
  cases h
  rfl

theorem collect?_of_awaited (h : s.response = .awaited) : s.collect? = none := by
  obtain ⟨c, response⟩ := s
  cases h
  rfl

theorem collect?_of_taken (h : s.response = .taken r) : s.collect? = none := by
  obtain ⟨c, response⟩ := s
  cases h
  rfl

end Slip

theorem Slip.collect?_eq_some {s t : Slip} (h : s.collect? = some t) :
    ∃ r, t = ⟨s.command, .taken r⟩ ∧ (s.response = .sent r ∨
      s.response = .hungUp ∧ r = s.command.lost s!"no completion for '{s.command.label}'") := by
  obtain ⟨c, response⟩ := s
  cases response with
  | awaited => nomatch h
  | sent r => exact ⟨r, (Option.some.inj h).symm, .inl rfl⟩
  | hungUp => exact ⟨_, (Option.some.inj h).symm, .inr ⟨rfl, rfl⟩⟩
  | taken r => nomatch h

theorem Slip.command_eq_of_collect? {s t : Slip} (h : s.collect? = some t) : t.command = s.command := by
  obtain ⟨r, rfl, -⟩ := Slip.collect?_eq_some h
  rfl

theorem collect?_eq_some {i : Nat} (h : x.collect? i = some y) :
    ∃ s t, x.slips[i]? = some s ∧ s.collect? = some t ∧ y = { x with slips := x.slips.set i t } := by
  unfold collect? at h
  split at h
  · rename_i s hs
    obtain ⟨t, ht, hy⟩ := Option.map_eq_some_iff.mp h
    exact ⟨s, t, hs, ht, hy.symm⟩
  · nomatch h

theorem join?_eq_some (h : x.join? = some y) :
    x.joining = true ∧ (x.worker = .exited ∧ y = { x with joining := false } ∨
      x.worker = .dead ∧ y =
        { x with joining := false, notes := x.notes ++ [⟨"queue_worker_panicked", .error, []⟩] }) := by
  obtain ⟨sender, handle, joining, channel, worker, slips, memory, labels, notes⟩ := x
  cases joining with
  | false => nomatch h
  | true =>
    cases worker with
    | exited => exact ⟨rfl, .inl ⟨rfl, (Option.some.inj h).symm⟩⟩
    | dead => exact ⟨rfl, .inr ⟨rfl, (Option.some.inj h).symm⟩⟩
    | _ => nomatch h

section
variable (c : Command)

theorem submit_of_closed (h : x.sender = false) : x.submit c = x.refuse c "command queue is shut down" := by
  unfold submit
  rw [h]
  exact if_pos rfl

theorem submit_of_gone (h : x.sender = true) (hw : x.worker.gone = true) :
    x.submit c = x.refuse c "command queue worker has exited" := by
  unfold submit
  rw [h, hw]
  rfl

theorem submit_of_open (h : x.sender = true) (hw : x.worker.gone = false) : x.submit c =
    { x with
      slips := x.slips ++ [⟨c, .awaited⟩]
      channel := x.channel ++ [.run c x.slips.length] } := by
  unfold submit
  rw [h, hw]
  rfl

end

section
variable (x) (c : Command) (i : Nat)

theorem execute_of_not_bursts (h : ¬ c.BurstsOn x.memory) : x.execute c i =
    { x with
      worker := .ended c i (c.receipt x.memory)
      memory := (c.work x.memory).memory
      notes := x.notes ++ (c.work x.memory).notes } := by
  unfold execute
  dsimp only
  rw [boundary_eq, if_neg (show ¬ (c.work x.memory).ending.bursts = true from h)]
  rfl

theorem execute_of_bursts (h : c.BurstsOn x.memory) : x.execute c i =
    { x with
      worker := .unwinding
      slips := x.slips.modify i (.respond .hangUp)
      memory := (c.work x.memory).memory
      notes := x.notes ++ (c.work x.memory).notes } := by
  unfold execute
  dsimp only
  rw [boundary_eq, if_pos (show (c.work x.memory).ending.bursts = true from h)]

end

/-! ## what the worker can do -/

inductive Works (x : Exchange) : Exchange → Prop
  | take {c : Command} {i : Nat} {rest : List Message} (hw : x.worker = .ready)
      (hc : x.channel = .run c i :: rest) : Works x { x with worker := .running c i, channel := rest }
  | last {rest : List Message} (hw : x.worker = .ready) (hc : x.channel = .shutdown :: rest) :
      Works x (exit { x with channel := rest })
  | alone (hw : x.worker = .ready) (hc : x.channel = []) (hs : x.sender = false) : Works x x.exit
  | finish {c : Command} {i : Nat} (hw : x.worker = .running c i) (hc : ¬ c.BurstsOn x.memory) :
      Works x
        { x with
          worker := .ended c i (c.receipt x.memory)
          memory := (c.work x.memory).memory
          notes := x.notes ++ (c.work x.memory).notes }
  | burst {c : Command} {i : Nat} (hw : x.worker = .running c i) (hc : c.BurstsOn x.memory) :
      Works x
        { x with
          worker := .unwinding
          slips := x.slips.modify i (.respond .hangUp)
          memory := (c.work x.memory).memory
          notes := x.notes ++ (c.work x.memory).notes }
  | record {c : Command} {i : Nat} {r : Receipt} (hw : x.worker = .ended c i r) :
      Works x { x with worker := .recorded c i r, labels := x.labels.map (· ++ [c.label]) }
  | answer {c : Command} {i : Nat} {r : Receipt} (hw : x.worker = .recorded c i r) :
      Works x { x with worker := .ready, slips := x.slips.modify i (.respond (.send r)) }
  | die (hw : x.worker = .unwinding) : Works x (x.leave .dead)

theorem works_of_work? (h : x.work? = some y) : Works x y := by
  unfold work? at h
  split at h
  · rename_i hw
    split at h
    · rename_i hc
      cases h
      exact .take hw hc
    · rename_i hc
      cases h
      exact .last hw hc
    · rename_i hc
      cases hs : x.sender with
      | true =>
        rw [hs] at h
        nomatch h
      | false =>
        rw [hs] at h
        cases h
        exact .alone hw hc hs
  · rename_i c i hw
    cases h
    by_cases hc : c.BurstsOn x.memory
    · rw [x.execute_of_bursts c i hc]
      exact .burst hw hc
    · rw [x.execute_of_not_bursts c i hc]
      exact .finish hw hc
  · rename_i hw
    cases h
    exact .record hw
  · rename_i hw
    cases h
    exact .answer hw
  · rename_i hw
    cases h
    exact .die hw
  · nomatch h
  · nomatch h

/-! ## what callers have -/

/-- Without a further order there is nothing to be done. -/
def Still (x : Exchange) : Prop := ∀ a : Act, a.order? = none → x.step? a = none

/-- Without a further order the two sides come to a stop, in whatever way they take turns, and this holds
where they do. -/
inductive Settles (P : Exchange → Prop) : Exchange → Prop
  | intro {x : Exchange} (still : x.Still → P x)
      (next : ∀ (a : Act) y, a.order? = none → x.step? a = some y → Settles P y) : Settles P x

def Slip.isOpen (s : Slip) : Bool :=
  match s.response with
  | .taken _ => false
  | _ => true

def Message.toil : Message → Nat
  | run .. => 4
  | shutdown => 1

/-- all that comes of some messages -/
def Message.toils : List Message → Nat
  | [] => 0
  | msg :: ms => msg.toil + toils ms

def Worker.toil : Worker → Nat
  | running .. => 4
  | ended .. => 3
  | recorded .. => 2
  | ready | unwinding => 1
  | exited | dead => 0

/-- No more steps than this are left without a further order. -/
def toil (x : Exchange) : Nat :=
  x.worker.toil + Message.toils x.channel + x.slips.countP Slip.isOpen + x.joining.toNat

theorem Slip.isOpen_send (r : Receipt) (s : Slip) : (s.respond (.send r)).isOpen = s.isOpen := by
  obtain ⟨c, response⟩ := s
  cases response <;> rfl

theorem Slip.isOpen_hangUp (s : Slip) : (s.respond .hangUp).isOpen = s.isOpen := by
  obtain ⟨c, response⟩ := s
  cases response <;> rfl

theorem countP_modify {f : Slip → Slip} (hf : ∀ s, (f s).isOpen = s.isOpen) (slips : List Slip) (i : Nat) :
    (slips.modify i f).countP Slip.isOpen = slips.countP Slip.isOpen := by
  induction slips generalizing i with
  | nil => rw [List.modify_nil]
  | cons s slips ih =>
    cases i with
    | zero => rw [List.modify_zero_cons, List.countP_cons, List.countP_cons, hf]
    | succ i => rw [List.modify_succ_cons, List.countP_cons, List.countP_cons, ih]

theorem countP_drop (slips : List Slip) (ms : List Message) :
    (ms.foldl Message.drop slips).countP Slip.isOpen = slips.countP Slip.isOpen := by
  induction ms generalizing slips with
  | nil => rfl
  | cons msg ms ih =>
    rw [List.foldl_cons, ih]
    cases msg with
    | run c i => exact countP_modify Slip.isOpen_hangUp slips i
    | shutdown => rfl

theorem toil_collect {i : Nat} (h : x.collect? i = some y) : y.toil < x.toil := by
  obtain ⟨s, t, hs, ht, rfl⟩ := collect?_eq_some h
  obtain ⟨r, rfl, hr⟩ := Slip.collect?_eq_some ht
  obtain ⟨hi, hget⟩ := List.getElem?_eq_some_iff.mp hs
  have hopen : s.isOpen = true := by
    unfold Slip.isOpen
    rcases hr with hr | ⟨hr, -⟩ <;> rw [hr]
  have hpos : 0 < x.slips.countP Slip.isOpen :=
    List.countP_pos_iff.mpr ⟨s, List.mem_of_getElem? hs, hopen⟩
  have hcount : (x.slips.set i ⟨s.command, .taken r⟩).countP Slip.isOpen + 1 =
      x.slips.countP Slip.isOpen := by
    rw [List.countP_set hi, hget, if_pos hopen, if_neg (show ¬ Slip.isOpen ⟨s.command, .taken r⟩ = true from
      Bool.false_ne_true)]
    omega
  simp only [toil]
  omega

theorem toil_join (h : x.join? = some y) : y.toil < x.toil := by
  obtain ⟨hj, ⟨-, rfl⟩ | ⟨-, rfl⟩⟩ := join?_eq_some h
  · simp only [toil, hj, Bool.toNat_true, Bool.toNat_false]
    omega
  · simp only [toil, hj, Bool.toNat_true, Bool.toNat_false]
    omega

theorem toil_work (h : x.work? = some y) : y.toil < x.toil := by
  cases works_of_work? h with
  | take hw hc =>
    simp only [toil, hw, hc, Worker.toil, Message.toils, Message.toil]
    omega
  | last hw hc =>
    simp only [toil, exit, leave, hw, hc, Worker.toil, Message.toils, Message.toil, countP_drop]
    omega
  | alone hw hc hs =>
    simp only [toil, exit, leave, hw, hc, Worker.toil, countP_drop]
    omega
  | finish hw hc =>
    simp only [toil, hw, Worker.toil]
    omega
  | burst hw hc =>
    simp only [toil, hw, Worker.toil, countP_modify Slip.isOpen_hangUp]
    omega
  | record hw =>
    simp only [toil, hw, Worker.toil]
    omega
  | @answer c i r hw =>
    simp only [toil, hw, Worker.toil, countP_modify (Slip.isOpen_send r)]
    omega
  | die hw =>
    simp only [toil, leave, hw, Worker.toil, Message.toils, countP_drop]
    omega

theorem toil_lt {a : Act} (ha : a.order? = none) (h : x.step? a = some y) : y.toil < x.toil := by
  cases a with
  | submit c => nomatch ha
  | close => nomatch ha
  | collect i => exact toil_collect h
  | join => exact toil_join h
  | work => exact toil_work h

/-- What every step keeps holds where the two sides come to a stop. -/
theorem Settles.of_invariant {I P : Exchange → Prop}
    (hstep : ∀ {x y} {a : Act}, a.order? = none → I x → x.step? a = some y → I y)
    (hstill : ∀ {x : Exchange}, I x → x.Still → P x) (hx : I x) :
    Settles P x := by
  generalize hn : x.toil = n
  induction n using Nat.strongRecOn generalizing x with
  | ind n ih =>
    refine .intro (hstill hx) fun a y ha hy => ?_
    exact ih y.toil (hn ▸ toil_lt ha hy) (hstep ha hx hy) rfl

theorem Settles.mono {P Q : Exchange → Prop} (h : Settles P x) (hpq : ∀ y, P y → Q y) : Settles Q x := by
  induction h with
  | intro still _ ih => exact .intro (fun hx => hpq _ (still hx)) ih

end Offload.Accelerator.Exchange
