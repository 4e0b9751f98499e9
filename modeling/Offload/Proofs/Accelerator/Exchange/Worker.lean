import Offload.Proofs.Accelerator.Exchange.Step

/-!
# Where an exchange can be

* `Alive`   the worker has served some commands, has one in hand or none, and all others that were accepted
            are in the channel, in the order in which they were handed in;
* `Broken`  the worker got rid of a payload that burst.  What it had served is answered, and nothing after
            that ever will be;
* `Stands`  one of both, for the orders so far.  Every step keeps it (`Stands.step`), and so does every run
            (`Stands.run`).
-/

namespace Offload.Accelerator.Exchange

open Command (through heard receipts)

variable {x y : Exchange}

/-! ## where the exchange can be -/

section
variable (profiling : Bool) (m : Memory) (os : List Order) (served held pending : List Command) (b : Command)

/-- Commands that were all answered. -/
def Calm (m : Memory) : List Command → Prop
  | [] => True
  | c :: cs => ¬ c.BurstsOn m ∧ Calm (c.work m).memory cs

/-- the labels that are kept of commands -/
def kept (cs : List Command) : Option (List String) := if profiling then some (cs.map (·.label)) else none

def panicked : Trace.Note := ⟨"queue_worker_panicked", .error, []⟩

/-- What a worker has done that served some commands and has another one in hand. -/
inductive Hand : List Command → Worker → Memory → Option (List String) → List Trace.Note → Prop
  | ready : Hand [] .ready (through m served) (kept profiling served) (heard m served)
  | running (c : Command) :
    Hand [c] (.running c served.length) (through m served) (kept profiling served) (heard m served)
  | ended (c : Command) (hc : ¬ c.BurstsOn (through m served)) :
    Hand [c] (.ended c served.length (c.receipt (through m served))) (through m (served ++ [c]))
      (kept profiling served) (heard m (served ++ [c]))
  | recorded (c : Command) (hc : ¬ c.BurstsOn (through m served)) :
    Hand [c] (.recorded c served.length (c.receipt (through m served))) (through m (served ++ [c]))
      (kept profiling (served ++ [c])) (heard m (served ++ [c]))
  | exited : Hand [] .exited (through m served) (kept profiling served) (heard m served ++ [Queue.exited])

/-- the messages for commands whose slips begin with this one -/
def messages : Nat → List Command → List Message
  | _, [] => []
  | n, c :: cs => .run c n :: messages (n + 1) cs

/-- What can stand on a slip, where some are answered and others accepted. -/
structure Fits (rs : List Receipt) (accepted i : Nat) (s : Slip) : Prop where
  answered : ∀ r, rs[i]? = some r → s.response = .sent r ∨ s.response = .taken r
  awaited : rs.length ≤ i → i < accepted → s.response = .awaited
  late : rs.length ≤ i → accepted ≤ i → s.response = .taken s.command.late

/-- The worker is alive, or it came to the last message. -/
structure Alive (x : Exchange) : Prop where
  hand : Hand profiling m served held x.worker x.memory x.labels x.notes
  accepted : Order.accepted os = served ++ held ++ pending
  sender : x.sender = !os.any Order.closes
  handle : x.handle = x.sender
  channel : x.channel = messages (served ++ held).length pending ++
    bif x.sender || x.worker.gone then [] else [.shutdown]
  exited : x.worker = .exited → pending = [] ∧ x.sender = false
  joining : x.worker ≠ .exited → x.joining = !x.sender
  commands : x.slips.map (·.command) = os.filterMap Order.command?
  slips : ∀ i s, x.slips[i]? = some s → Fits (receipts m served) (Order.accepted os).length i s
  calm : Calm m served

/-- The command on this slip is never answered: its channel is gone, its caller has heard so, or it stands in
a channel that the worker is about to leave. -/
inductive Lost (w : Worker) (channel : List Message) (i : Nat) (s : Slip) : Prop
  | hungUp (h : s.response = .hungUp)
  | heard (reason : String) (h : s.response = .taken (s.command.lost reason))
  | sent (h : s.response = .awaited) (hw : w = .unwinding) (c : Command) (hc : Message.run c i ∈ channel)

/-- The worker died of a command whose payload burst. -/
structure Broken (x : Exchange) : Prop where
  down : x.worker = .unwinding ∨ x.worker = .dead
  bursts : b.BurstsOn (through m served)
  accepted : ∃ rest, Order.accepted os = served ++ b :: rest
  sender : x.sender = !os.any Order.closes
  handle : x.handle = x.sender
  joining : x.joining = true → x.sender = false
  unwinding : x.worker = .unwinding → x.joining = !x.sender
  memory : x.memory = through m (served ++ [b])
  labels : x.labels = kept profiling served
  notes : x.notes = heard m (served ++ [b]) ++ bif x.sender || x.joining then [] else [panicked]
  commands : x.slips.map (·.command) = os.filterMap Order.command?
  answered : ∀ (i : Nat) (s : Slip) r, x.slips[i]? = some s → (receipts m served)[i]? = some r →
    s.response = .sent r ∨ s.response = .taken r
  lost : ∀ i s, x.slips[i]? = some s → served.length ≤ i → Lost x.worker x.channel i s
  calm : Calm m served

/-- where an exchange can be after some orders -/
def Stands (x : Exchange) : Prop :=
  (∃ served held pending, Alive profiling m os served held pending x) ∨
    ∃ served b, Broken profiling m os served b x

end

section
variable {profiling : Bool} {m : Memory} {os : List Order} {served held pending : List Command} {b : Command}

theorem messages_concat (n : Nat) (cs : List Command) (c : Command) :
    messages n (cs ++ [c]) = messages n cs ++ [.run c (n + cs.length)] := by
  induction cs generalizing n with
  | nil => rfl
  | cons b cs ih =>
    show Message.run b n :: messages (n + 1) (cs ++ [c]) = _
    rw [ih, List.length_cons, Nat.add_right_comm, Nat.add_assoc]
    rfl

theorem exists_mem_messages {n i : Nat} {cs : List Command} (hi : n ≤ i) (hn : i < n + cs.length) :
    ∃ c, Message.run c i ∈ messages n cs := by
  induction cs generalizing n with
  | nil => exact absurd hn (Nat.not_lt.mpr hi)
  | cons c cs ih =>
    rcases Nat.eq_or_lt_of_le hi with rfl | hlt
    · exact ⟨c, .head _⟩
    · rw [List.length_cons, ← Nat.add_assoc, Nat.add_right_comm] at hn
      obtain ⟨d, hd⟩ := ih hlt hn
      exact ⟨d, .tail _ hd⟩

theorem Calm.concat {cs : List Command} {c : Command} (h : Calm m cs) (hc : ¬ c.BurstsOn (through m cs)) :
    Calm m (cs ++ [c]) := by
  induction cs generalizing m with
  | nil => exact ⟨hc, trivial⟩
  | cons b cs ih => exact ⟨h.1, ih h.2 hc⟩

theorem kept_concat (cs : List Command) (c : Command) :
    (kept profiling cs).map (· ++ [c.label]) = kept profiling (cs ++ [c]) := by
  unfold kept
  rw [List.map_append]
  cases profiling <;> rfl

variable {slips : List Slip} {rs : List Receipt} {n : Nat}

/-- the answer to the first command that awaits one -/
theorem fits_send (h : ∀ i s, slips[i]? = some s → Fits rs n i s) (hn : rs.length < n) (r : Receipt) :
    ∀ i s, (slips.modify rs.length (.respond (.send r)))[i]? = some s → Fits (rs ++ [r]) n i s := by
  intro i s hs
  rw [List.getElem?_modify] at hs
  obtain ⟨t, ht, rfl⟩ := Option.map_eq_some_iff.mp hs
  have hfits := h i t ht
  by_cases hi : rs.length = i
  · subst hi
    rw [if_pos rfl]
    refine ⟨fun r' hr' => .inl ?_, fun hle => ?_, fun hle => ?_⟩
    · rw [List.getElem?_concat_length] at hr'
      cases hr'
      show Response.send r t.response = _
      rw [hfits.awaited (Nat.le_refl _) hn]
      rfl
    · rw [List.length_append] at hle
      exact absurd hle (Nat.not_succ_le_self _)
    · rw [List.length_append] at hle
      exact absurd hle (Nat.not_succ_le_self _)
  · rw [if_neg hi]
    refine ⟨fun r' hr' => ?_, fun hle => ?_, fun hle => ?_⟩
    · refine hfits.answered r' ?_
      rcases Nat.lt_or_ge i rs.length with hlt | hge
      · rwa [List.getElem?_append_left hlt] at hr'
      · have hlen := (List.getElem?_eq_some_iff.mp hr').1
        rw [List.length_append, List.length_singleton] at hlen
        exact absurd (Nat.le_antisymm hge (Nat.le_of_lt_succ hlen)) hi
    · rw [List.length_append] at hle
      exact hfits.awaited (Nat.le_of_succ_le hle)
    · rw [List.length_append] at hle
      exact hfits.late (Nat.le_of_succ_le hle)

/-- Whoever has an answer got it as it was sent. -/
theorem taken_of_collect {s t : Slip} {r : Receipt} (h : s.response = .sent r ∨ s.response = .taken r)
    (ht : s.collect? = some t) : t.response = .taken r := by
  rcases h with hsent | htaken
  · cases (Slip.collect?_of_sent hsent).symm.trans ht
    rfl
  · nomatch (Slip.collect?_of_taken htaken).symm.trans ht

theorem fits_collect {i : Nat} {s t : Slip} (h : ∀ i s, slips[i]? = some s → Fits rs n i s)
    (hs : slips[i]? = some s) (ht : s.collect? = some t) :
    ∀ j u, (slips.set i t)[j]? = some u → Fits rs n j u := by
  intro j u hu
  rcases getElem?_set_cases slips hu with hu | ⟨rfl, rfl⟩
  · exact h j u hu
  · have hfits := h j s hs
    refine ⟨fun r hr => .inr (taken_of_collect (hfits.answered r hr) ht), fun hle hlt => ?_, fun hle hn => ?_⟩
    · nomatch (Slip.collect?_of_awaited (hfits.awaited hle hlt)).symm.trans ht
    · nomatch (Slip.collect?_of_taken (hfits.late hle hn)).symm.trans ht

theorem fits_concat_late {c : Command} (h : ∀ i s, slips[i]? = some s → Fits rs n i s)
    (hrs : rs.length ≤ n) (hn : n ≤ slips.length) :
    ∀ i s, (slips ++ [⟨c, .taken c.late⟩])[i]? = some s → Fits rs n i s := by
  intro i s hs
  rcases getElem?_concat_cases slips hs with hs | ⟨rfl, rfl⟩
  · exact h i s hs
  · refine ⟨fun r hr => ?_, fun _ hlt => absurd hlt (Nat.not_lt.mpr hn), fun _ _ => rfl⟩
    have hlt := (List.getElem?_eq_some_iff.mp hr).1
    exact absurd hlt (Nat.not_lt.mpr (Nat.le_trans hrs hn))

theorem fits_concat_awaited {c : Command} (h : ∀ i s, slips[i]? = some s → Fits rs slips.length i s)
    (hrs : rs.length ≤ slips.length) :
    ∀ i s, (slips ++ [⟨c, .awaited⟩])[i]? = some s → Fits rs (slips.length + 1) i s := by
  intro i s hs
  rcases getElem?_concat_cases slips hs with hs | ⟨rfl, rfl⟩
  · have hlt := (List.getElem?_eq_some_iff.mp hs).1
    have hfits := h i s hs
    exact ⟨hfits.answered, fun hle _ => hfits.awaited hle hlt,
      fun _ hle => absurd hlt (Nat.not_lt.mpr (Nat.le_of_succ_le hle))⟩
  · refine ⟨fun r hr => ?_, fun _ _ => rfl, fun _ hle => absurd hle (Nat.not_succ_le_self _)⟩
    have hlt := (List.getElem?_eq_some_iff.mp hr).1
    exact absurd hlt (Nat.not_lt.mpr hrs)

theorem Hand.eq_exited {w : Worker} {mem : Memory} {labels : Option (List String)} {notes : List Trace.Note}
    (h : Hand profiling m served held w mem labels notes) (hw : w.gone = true) : w = .exited := by
  cases h <;> first | rfl | nomatch hw

theorem Hand.of_running {c : Command} {i : Nat} {mem : Memory} {labels : Option (List String)}
    {notes : List Trace.Note} (h : Hand profiling m served held (.running c i) mem labels notes) :
    held = [c] ∧ i = served.length ∧ mem = through m served ∧ labels = kept profiling served ∧
      notes = heard m served := by
  cases h
  exact ⟨rfl, rfl, rfl, rfl, rfl⟩

/-! ## a worker that is alive -/

namespace Alive

theorem start (profiling : Bool) (m : Memory) : Alive profiling m [] [] [] [] (start profiling m) where
  hand := .ready
  accepted := rfl
  sender := rfl
  handle := rfl
  channel := rfl
  exited h := nomatch h
  joining _ := rfl
  commands := rfl
  slips _ _ hs := nomatch hs
  calm := trivial

variable (h : Alive profiling m os served held pending x)
include h

theorem length_slips : x.slips.length = (os.filterMap Order.command?).length := by
  rw [← h.commands, List.length_map]

theorem length_accepted_le : (Order.accepted os).length ≤ x.slips.length := by
  rw [h.length_slips, Order.filterMap_command?, List.length_append]
  exact Nat.le_add_right ..

theorem not_gone (hs : x.sender = true) : x.worker.gone = false := by
  refine Bool.eq_false_iff.mpr fun hgone => ?_
  have := (h.exited (h.hand.eq_exited hgone)).2
  rw [hs] at this
  nomatch this

theorem length_receipts_le : (receipts m served).length ≤ (Order.accepted os).length := by
  rw [Command.length_receipts, h.accepted, List.append_assoc, List.length_append]
  exact Nat.le_add_right ..

theorem commands_concat (c : Command) (response : Response) :
    (x.slips ++ [Slip.mk c response]).map (·.command) =
      (os ++ [Order.command c]).filterMap Order.command? := by
  rw [List.map_append, h.commands, List.filterMap_append]
  rfl

/-- An open exchange accepts one command more. -/
theorem submit_open (hopen : os.any Order.closes = false) (c : Command) :
    Alive profiling m (os ++ [.command c]) served held (pending ++ [c]) (x.submit c) := by
  have hsender : x.sender = true := by
    rw [h.sender, hopen]
    rfl
  have hlength : x.slips.length = (Order.accepted os).length := by
    rw [h.length_slips, Order.filterMap_command?, Order.late_of_open hopen, List.append_nil]
  have hnext : x.slips.length = (served ++ held).length + pending.length := by
    rw [hlength, h.accepted, List.length_append]
  have haccepted : Order.accepted (os ++ [.command c]) = Order.accepted os ++ [c] := by
    rw [Order.accepted_concat_command, hopen, if_neg Bool.false_ne_true]
  rw [submit_of_open c hsender (h.not_gone hsender)]
  exact
    { hand := h.hand
      accepted := by rw [haccepted, h.accepted, List.append_assoc]
      sender := by
        rw [List.any_append, hopen]
        exact hsender
      handle := h.handle
      channel := by
        show x.channel ++ [.run c x.slips.length] = _
        rw [h.channel, messages_concat, hsender, hnext]
        simp only [Bool.true_or, cond_true, List.append_nil]
      exited := fun hw => absurd ((h.exited hw).2.symm.trans hsender) Bool.false_ne_true
      joining := h.joining
      commands := h.commands_concat ..
      slips := by
        rw [haccepted, List.length_append, List.length_singleton, ← hlength]
        exact fits_concat_awaited (hlength ▸ h.slips) (hlength ▸ h.length_receipts_le)
      calm := h.calm }

/-- A closed exchange refuses it. -/
theorem submit_closed (hclosed : os.any Order.closes = true) (c : Command) :
    Alive profiling m (os ++ [.command c]) served held pending (x.submit c) := by
  have hsender : x.sender = false := by
    rw [h.sender, hclosed]
    rfl
  have haccepted : Order.accepted (os ++ [.command c]) = Order.accepted os := by
    rw [Order.accepted_concat_command, hclosed, if_pos rfl]
  rw [submit_of_closed c hsender]
  exact
    { hand := h.hand
      accepted := haccepted.trans h.accepted
      sender := by
        rw [List.any_append, hclosed]
        exact hsender
      handle := h.handle
      channel := h.channel
      exited := h.exited
      joining := h.joining
      commands := h.commands_concat ..
      slips := by
        rw [haccepted]
        exact fits_concat_late h.slips h.length_receipts_le h.length_accepted_le
      calm := h.calm }

theorem submit (c : Command) :
    ∃ pending', Alive profiling m (os ++ [.command c]) served held pending' (x.submit c) := by
  cases hos : os.any Order.closes with
  | false => exact ⟨_, h.submit_open hos c⟩
  | true => exact ⟨_, h.submit_closed hos c⟩

theorem close : Alive profiling m (os ++ [.close]) served held pending x.close where
  hand := h.hand
  accepted := (Order.accepted_concat_close os).trans h.accepted
  sender := by
    rw [List.any_append]
    exact (congrArg (!·) (Bool.or_true _)).symm
  handle := rfl
  channel := by
    show (if x.sender && !x.worker.gone then x.channel ++ [.shutdown] else x.channel) = _
    rw [h.channel]
    cases hs : x.sender with
    | true =>
      have hclose : x.close.worker.gone = false := h.not_gone hs
      rw [h.not_gone hs, hclose]
      exact congrArg (· ++ [Message.shutdown]) (List.append_nil _)
    | false => rfl
  exited hw := ⟨(h.exited hw).1, rfl⟩
  joining hw := by
    show (x.joining || x.handle) = true
    rw [h.joining hw, h.handle, Bool.not_or_self]
  commands := by
    rw [List.filterMap_append]
    exact h.commands.trans (List.append_nil _).symm
  slips := by
    rw [Order.accepted_concat_close]
    exact h.slips
  calm := h.calm

theorem collect {i : Nat} (hy : x.collect? i = some y) : Alive profiling m os served held pending y := by
  obtain ⟨s, t, hs, ht, rfl⟩ := collect?_eq_some hy
  exact { h with
    commands := (commands_set x.slips hs (Slip.command_eq_of_collect? ht)).trans h.commands
    slips := fits_collect h.slips hs ht }

theorem join (hy : x.join? = some y) : Alive profiling m os served held pending y := by
  obtain ⟨-, ⟨hw, rfl⟩ | ⟨hw, -⟩⟩ := join?_eq_some hy
  · exact { h with joining := fun hne => absurd hw hne }
  · have hgone := h.hand.eq_exited (congrArg Worker.gone hw)
    rw [hw] at hgone
    nomatch hgone

/-- A command whose payload bursts takes the worker along, and all that is still in the channel. -/
theorem broken {c : Command} {i : Nat} (hw : x.worker = .running c i) (hc : c.BurstsOn x.memory) :
    Broken profiling m os served c (x.execute c i) := by
  have hhand := h.hand
  rw [hw] at hhand
  obtain ⟨rfl, rfl, hmemory, hlabels, hnotes⟩ := hhand.of_running
  rw [execute_of_bursts _ c _ hc]
  have hjoining := h.joining (by rw [hw]; nofun)
  refine
    { down := .inl rfl
      bursts := hmemory ▸ hc
      accepted := ⟨pending, h.accepted.trans (List.append_assoc ..)⟩
      sender := h.sender
      handle := h.handle
      joining := fun hj => Bool.not_inj (hjoining.symm.trans hj)
      unwinding := fun _ => hjoining
      memory := ?_
      labels := hlabels
      notes := ?_
      commands := (commands_modify x.slips _ _).trans h.commands
      answered := fun j s r hs hr => ?_
      lost := fun j s hs hj => ?_
      calm := h.calm }
  · rw [Command.through_concat, ← hmemory]
  · show x.notes ++ _ = _
    rw [Command.heard_concat, ← hmemory, hnotes, hjoining, Bool.or_not_self]
    exact (List.append_nil _).symm
  · rw [List.getElem?_modify] at hs
    obtain ⟨t, ht, rfl⟩ := Option.map_eq_some_iff.mp hs
    have hlt := (List.getElem?_eq_some_iff.mp hr).1
    rw [Command.length_receipts] at hlt
    rw [if_neg (Nat.ne_of_gt hlt)]
    exact (h.slips j t ht).answered r hr
  · rw [List.getElem?_modify] at hs
    obtain ⟨t, ht, rfl⟩ := Option.map_eq_some_iff.mp hs
    have hfits := h.slips j t ht
    have hlen := Command.length_receipts m served
    rcases Nat.eq_or_lt_of_le hj with rfl | hlt
    · have hnext : served.length < (Order.accepted os).length := by
        rw [h.accepted, List.length_append, List.length_append, List.length_singleton]
        omega
      rw [if_pos rfl]
      exact .hungUp (congrArg Response.hangUp (hfits.awaited (Nat.le_of_eq hlen) hnext))
    · rw [if_neg (Nat.ne_of_lt hlt)]
      have hle : (receipts m served).length ≤ j := hlen ▸ hj
      rcases Nat.lt_or_ge j (Order.accepted os).length with hacc | hacc
      · have hlast : j < (served ++ [c]).length + pending.length := by
          rwa [h.accepted, List.length_append] at hacc
        have hfirst : (served ++ [c]).length ≤ j := by
          rw [List.length_append, List.length_singleton]
          exact hlt
        obtain ⟨d, hd⟩ := exists_mem_messages hfirst hlast
        refine .sent (hfits.awaited hle hacc) rfl d ?_
        show Message.run d j ∈ x.channel
        rw [h.channel]
        exact List.mem_append_left _ hd
      · exact .heard _ (hfits.late hle hacc)

theorem work (hy : x.work? = some y) : Stands profiling m os y := by
  obtain ⟨sender, handle, joining, channel, worker, slips, memory, labels, notes⟩ := x
  have hhand := h.hand
  have hchannel := h.channel
  dsimp only at hhand hchannel
  cases hhand with
  | ready =>
    cases pending with
    | cons c pending =>
      rw [List.append_nil] at hchannel
      subst hchannel
      cases hy
      exact .inl ⟨served, [c], pending, { h with
        hand := .running c
        accepted := h.accepted.trans (by rw [List.append_nil, List.append_assoc]; rfl)
        channel := by
          rw [List.length_append]
          rfl
        exited := fun hw => nomatch hw
        joining := fun _ => h.joining nofun }⟩
    | nil =>
      cases sender with
      | true =>
        subst hchannel
        nomatch hy
      | false =>
        subst hchannel
        cases hy
        exact .inl ⟨served, [], [], { h with
          hand := .exited
          channel := rfl
          exited := fun _ => ⟨rfl, rfl⟩
          joining := fun hne => absurd rfl hne }⟩
  | running c =>
    cases hy
    by_cases hc : c.BurstsOn (through m served)
    · exact .inr ⟨served, c, h.broken rfl hc⟩
    · rw [execute_of_not_bursts _ c _ hc]
      exact .inl ⟨served, [c], pending, { h with
        hand := by
          rw [← Command.through_concat, ← Command.heard_concat]
          exact .ended c hc
        exited := fun hw => nomatch hw
        joining := fun _ => h.joining nofun }⟩
  | ended c hc =>
    cases hy
    exact .inl ⟨served, [c], pending, { h with
      hand := by
        rw [kept_concat]
        exact .recorded c hc
      exited := fun hw => nomatch hw
      joining := fun _ => h.joining nofun }⟩
  | recorded c hc =>
    cases hy
    have hlt : (receipts m served).length < (Order.accepted os).length := by
      rw [Command.length_receipts, h.accepted, List.length_append, List.length_append]
      exact Nat.lt_of_lt_of_le (Nat.lt_succ_self _) (Nat.le_add_right ..)
    exact .inl ⟨served ++ [c], [], pending, { h with
      hand := .ready
      accepted := by rw [h.accepted, List.append_nil]
      channel := by
        rw [List.append_nil]
        exact hchannel
      exited := fun hw => nomatch hw
      joining := fun _ => h.joining nofun
      commands := (commands_modify slips _ _).trans h.commands
      slips := by
        rw [Command.receipts_concat]
        exact Command.length_receipts m served ▸ fits_send h.slips hlt _
      calm := h.calm.concat hc }⟩
  | exited => nomatch hy

end Alive

/-! ## a worker that died -/

theorem Lost.mono {w : Worker} {channel : List Message} {more : List Message} {i : Nat} {s : Slip}
    (h : Lost w channel i s) : Lost w (channel ++ more) i s := by
  cases h with
  | hungUp h => exact .hungUp h
  | heard reason h => exact .heard reason h
  | sent h hw c hc => exact .sent h hw c (List.mem_append_left _ hc)

namespace Broken

variable (h : Broken profiling m os served b x)
include h

theorem length_le : served.length ≤ x.slips.length := by
  obtain ⟨rest, hrest⟩ := h.accepted
  rw [← List.length_map (f := Slip.command), h.commands, Order.filterMap_command?, hrest, List.append_assoc,
    List.length_append]
  exact Nat.le_add_right ..

/-- One more command is no better off than those before it. -/
theorem hand_in (c : Command) {response : Response} {more : List Message}
    (hl : Lost x.worker (x.channel ++ more) x.slips.length ⟨c, response⟩) :
    Broken profiling m (os ++ [.command c]) served b
      { x with slips := x.slips ++ [⟨c, response⟩], channel := x.channel ++ more } := by
  refine { h with
    accepted := ?_
    sender := ?_
    commands := ?_
    answered := fun i s r hs hr => ?_
    lost := fun i s hs hi => ?_ }
  · obtain ⟨rest, hrest⟩ := h.accepted
    rw [Order.accepted_concat_command, hrest]
    split
    · exact ⟨rest, rfl⟩
    · exact ⟨rest ++ [c], List.append_assoc ..⟩
  · rw [List.any_append]
    exact h.sender.trans (congrArg (!·) (Bool.or_false _).symm)
  · rw [List.map_append, h.commands, List.filterMap_append]
    rfl
  · rcases getElem?_concat_cases x.slips hs with hs | ⟨rfl, -⟩
    · exact h.answered i s r hs hr
    · have hlt := (List.getElem?_eq_some_iff.mp hr).1
      rw [Command.length_receipts] at hlt
      exact absurd hlt (Nat.not_lt.mpr h.length_le)
  · rcases getElem?_concat_cases x.slips hs with hs | ⟨rfl, rfl⟩
    · exact (h.lost i s hs hi).mono
    · exact hl

theorem submit (c : Command) : Broken profiling m (os ++ [.command c]) served b (x.submit c) := by
  have hrefuse : ∀ reason, Broken profiling m (os ++ [.command c]) served b (x.refuse c reason) := by
    intro reason
    have hin : Broken profiling m (os ++ [.command c]) served b
        { x with slips := x.slips ++ [⟨c, .taken (c.lost reason)⟩], channel := x.channel ++ [] } :=
      h.hand_in c (.heard reason rfl)
    rw [List.append_nil] at hin
    exact hin
  cases hs : x.sender with
  | false =>
    rw [submit_of_closed c hs]
    exact hrefuse _
  | true =>
    rcases h.down with hw | hw
    · rw [submit_of_open c hs (congrArg Worker.gone hw)]
      exact h.hand_in c (.sent rfl hw c (List.mem_append_right _ (.head _)))
    · rw [submit_of_gone c hs (congrArg Worker.gone hw)]
      exact hrefuse _

theorem close : Broken profiling m (os ++ [.close]) served b x.close where
  down := h.down
  bursts := h.bursts
  accepted := by
    rw [Order.accepted_concat_close]
    exact h.accepted
  sender := by
    rw [List.any_append]
    exact (congrArg (!·) (Bool.or_true _)).symm
  handle := rfl
  joining _ := rfl
  unwinding hw := by
    show (x.joining || x.handle) = true
    rw [h.unwinding hw, h.handle, Bool.not_or_self]
  memory := h.memory
  labels := h.labels
  notes := by
    show x.notes = heard m (served ++ [b]) ++ bif x.joining || x.handle then [] else [panicked]
    rw [h.notes, h.handle, Bool.or_comm]
  commands := by
    rw [List.filterMap_append]
    exact h.commands.trans (List.append_nil _).symm
  answered := h.answered
  lost i s hs hi := by
    have hl := h.lost i s hs hi
    show Lost x.worker (if x.sender && !x.worker.gone then x.channel ++ [.shutdown] else x.channel) i s
    split
    · exact hl.mono
    · exact hl
  calm := h.calm

theorem collect {i : Nat} (hy : x.collect? i = some y) : Broken profiling m os served b y := by
  obtain ⟨s, t, hs, ht, rfl⟩ := collect?_eq_some hy
  refine { h with
    commands := (commands_set x.slips hs (Slip.command_eq_of_collect? ht)).trans h.commands
    answered := fun j u r hu hr => ?_
    lost := fun j u hu hj => ?_ }
  · rcases getElem?_set_cases x.slips hu with hu | ⟨rfl, rfl⟩
    · exact h.answered j u r hu hr
    · exact .inr (taken_of_collect (h.answered j s r hs hr) ht)
  · rcases getElem?_set_cases x.slips hu with hu | ⟨rfl, rfl⟩
    · exact h.lost j u hu hj
    · cases h.lost j s hs hj with
      | hungUp hl =>
        cases (Slip.collect?_of_hungUp hl).symm.trans ht
        exact .heard _ rfl
      | heard reason hl => nomatch (Slip.collect?_of_taken hl).symm.trans ht
      | sent hl => nomatch (Slip.collect?_of_awaited hl).symm.trans ht

theorem join (hy : x.join? = some y) : Broken profiling m os served b y := by
  obtain ⟨hj, ⟨hw, -⟩ | ⟨hw, rfl⟩⟩ := join?_eq_some hy
  · rcases h.down with hdown | hdown <;> nomatch hw.symm.trans hdown
  · refine { h with
      joining := nofun
      unwinding := fun hu => nomatch hw.symm.trans hu
      notes := ?_ }
    show x.notes ++ [panicked] = _
    rw [h.notes, hj, Bool.or_true, h.joining hj]
    exact congrArg (· ++ [panicked]) (List.append_nil _)

theorem die : Broken profiling m os served b (x.leave .dead) := by
  refine { h with
    down := .inr rfl
    unwinding := nofun
    commands := (commands_drop x.slips _).trans h.commands
    answered := fun i s r hs hr => ?_
    lost := fun i s hs hi => ?_ }
  · obtain ⟨t, ht, ⟨rfl, -⟩ | ⟨rfl, -⟩⟩ := getElem?_drop _ _ hs
    · exact h.answered i s r ht hr
    · rcases h.answered i t r ht hr with hl | hl
      · exact .inl (congrArg Response.hangUp hl)
      · exact .inr (congrArg Response.hangUp hl)
  · obtain ⟨t, ht, ⟨rfl, hms⟩ | ⟨rfl, -⟩⟩ := getElem?_drop _ _ hs
    · cases h.lost i s ht hi with
      | hungUp hl => exact .hungUp hl
      | heard reason hl => exact .heard reason hl
      | sent hl _ c hc => exact absurd hc (hms c)
    · cases h.lost i t ht hi with
      | hungUp hl => exact .hungUp (congrArg Response.hangUp hl)
      | heard reason hl => exact .heard reason (congrArg Response.hangUp hl)
      | sent hl => exact .hungUp (congrArg Response.hangUp hl)

theorem work (hy : x.work? = some y) : Broken profiling m os served b y := by
  have hdown : ∀ w, x.worker = w → w = .unwinding ∨ w = .dead := fun w hw => hw ▸ h.down
  cases works_of_work? hy with
  | die hw => exact h.die
  | take hw | last hw | alone hw | finish hw | burst hw | record hw | answer hw =>
    rcases hdown _ hw with hw | hw <;> nomatch hw

end Broken

/-! ## one step, and a whole run -/

theorem Stands.step {a : Act} (h : Stands profiling m os x) (hy : x.step? a = some y) :
    Stands profiling m (os ++ a.order?.toList) y := by
  rcases h with ⟨served, held, pending, h⟩ | ⟨served, b, h⟩
  · cases a with
    | submit c =>
      cases hy
      obtain ⟨pending', hc⟩ := h.submit c
      exact .inl ⟨served, held, pending', hc⟩
    | close =>
      cases hy
      exact .inl ⟨served, held, pending, h.close⟩
    | collect i => exact .inl ⟨served, held, pending, (List.append_nil os).symm ▸ h.collect hy⟩
    | join => exact .inl ⟨served, held, pending, (List.append_nil os).symm ▸ h.join hy⟩
    | work => exact (List.append_nil os).symm ▸ h.work hy
  · refine .inr ⟨served, b, ?_⟩
    cases a with
    | submit c =>
      cases hy
      exact h.submit c
    | close =>
      cases hy
      exact h.close
    | collect i => exact (List.append_nil os).symm ▸ h.collect hy
    | join => exact (List.append_nil os).symm ▸ h.join hy
    | work => exact (List.append_nil os).symm ▸ h.work hy

theorem Stands.run {acts : List Act} (h : Stands profiling m os x) (hy : x.run? acts = some y) :
    Stands profiling m (os ++ acts.filterMap Act.order?) y := by
  induction acts generalizing os x with
  | nil =>
    cases hy
    exact (List.append_nil os).symm ▸ h
  | cons a acts ih =>
    obtain ⟨z, hz, hy⟩ := Option.bind_eq_some_iff.mp hy
    have hrest := ih (h.step hz) hy
    rw [List.append_assoc] at hrest
    cases ha : a.order? with
    | none =>
      rw [List.filterMap_cons_none ha]
      rwa [ha] at hrest
    | some o =>
      rw [List.filterMap_cons_some ha]
      rwa [ha] at hrest

theorem Comes.stands (h : Comes profiling m os x) : Stands profiling m os x := by
  obtain ⟨acts, hx, rfl⟩ := h
  have hstart : Stands profiling m [] (Exchange.start profiling m) := .inl ⟨[], [], [], .start profiling m⟩
  exact hstart.run hx

end

end Offload.Accelerator.Exchange
