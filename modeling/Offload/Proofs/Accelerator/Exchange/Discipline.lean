import Offload.Proofs.Accelerator.Exchange.Worker

/-!
# The discipline of an exchange

In whatever way callers and worker take turns, they come to a stop (`Comes.settles`), and there either all
that was accepted is done and answered (`Done`) or the worker died of a payload that burst.

* `settles_served`  without such a payload an exchange comes to what a queue is like that serves the same
                    orders one after the other.  Jobs of executors leave none (`settles_runs`);
* `orders_served`   what that means for those who gave the orders, and what becomes of them where a payload
                    does burst.
-/

namespace Offload.Accelerator.Exchange

open Command (through heard receipts)

variable {x y : Exchange} {profiling : Bool} {m : Memory} {os : List Order}
  {served held pending : List Command} {b : Command}

/-! ## where it comes to a stop -/

/-- Everything that was accepted has been run and answered, and everything else refused. -/
structure Done (profiling : Bool) (m : Memory) (os : List Order) (x : Exchange) : Prop where
  memory : x.memory = through m (Order.accepted os)
  labels : x.labels = kept profiling (Order.accepted os)
  notes : x.notes = heard m (Order.accepted os) ++ bif os.any Order.closes then [Queue.exited] else []
  joining : x.joining = false
  sender : x.sender = !os.any Order.closes
  handle : x.handle = x.sender
  commands : x.slips.map (·.command) = os.filterMap Order.command?
  answered : ∀ (i : Nat) (s : Slip) r, x.slips[i]? = some s →
    (receipts m (Order.accepted os))[i]? = some r → s.response = .taken r
  late : ∀ (i : Nat) (s : Slip), x.slips[i]? = some s → (Order.accepted os).length ≤ i →
    s.response = .taken s.command.late
  calm : Calm m (Order.accepted os)

namespace Still

variable (hx : x.Still)
include hx

theorem work : x.work? = none := hx .work rfl

theorem not_open {i : Nat} {s : Slip} (hs : x.slips[i]? = some s) : s.collect? = none := by
  have hnone : x.collect? i = none := hx (.collect i) rfl
  unfold collect? at hnone
  rw [hs] at hnone
  exact Option.map_eq_none_iff.mp hnone

theorem not_sent {i : Nat} {s : Slip} (hs : x.slips[i]? = some s) (r : Receipt) : s.response ≠ .sent r :=
  fun hr => nomatch (Slip.collect?_of_sent hr).symm.trans (hx.not_open hs)

theorem not_hungUp {i : Nat} {s : Slip} (hs : x.slips[i]? = some s) : s.response ≠ .hungUp :=
  fun hr => nomatch (Slip.collect?_of_hungUp hr).symm.trans (hx.not_open hs)

theorem not_joining (hw : x.worker.gone = true) : x.joining = false := by
  have hnone : x.join? = none := hx .join rfl
  obtain ⟨sender, handle, joining, channel, worker, slips, memory, labels, notes⟩ := x
  cases joining with
  | false => rfl
  | true =>
    cases worker with
    | exited => nomatch hnone
    | dead => nomatch hnone
    | _ => nomatch hw

end Still

theorem Alive.done (h : Alive profiling m os served held pending x) (hx : x.Still) :
    Done profiling m os x := by
  obtain ⟨hheld, hpending, hnotes, hmemory, hlabels, hjoining⟩ :
      held = [] ∧ pending = [] ∧
        x.notes = heard m served ++ (bif os.any Order.closes then [Queue.exited] else []) ∧
        x.memory = through m served ∧ x.labels = kept profiling served ∧ x.joining = false := by
    have hwork := hx.work
    obtain ⟨sender, handle, joining, channel, worker, slips, memory, labels, notes⟩ := x
    have hhand := h.hand
    have hchannel := h.channel
    have hsender := h.sender
    dsimp only at hhand hchannel hsender
    cases hhand with
    | ready =>
      cases pending with
      | cons c pending =>
        subst hchannel
        nomatch hwork
      | nil =>
        cases hclosed : os.any Order.closes with
        | true =>
          rw [hclosed] at hsender
          subst hsender hchannel
          nomatch hwork
        | false =>
          rw [hclosed] at hsender
          have hjoining := h.joining nofun
          rw [hsender] at hjoining
          exact ⟨rfl, rfl, (List.append_nil _).symm, rfl, rfl, hjoining⟩
    | running c => nomatch hwork
    | ended c hc => nomatch hwork
    | recorded c hc => nomatch hwork
    | exited =>
      obtain ⟨hpending, hopen⟩ := h.exited rfl
      have hclosed : os.any Order.closes = true := Bool.not_inj (hsender.symm.trans hopen)
      rw [hclosed]
      exact ⟨rfl, hpending, rfl, rfl, rfl, hx.not_joining rfl⟩
  have haccepted : Order.accepted os = served := by
    rw [h.accepted, hheld, hpending, List.append_nil, List.append_nil]
  have hlength : (receipts m served).length = served.length := Command.length_receipts m served
  have hslips := h.slips
  rw [haccepted] at hslips
  exact
    { memory := haccepted ▸ hmemory
      labels := haccepted ▸ hlabels
      notes := haccepted ▸ hnotes
      joining := hjoining
      sender := h.sender
      handle := h.handle
      commands := h.commands
      answered := fun i s r hs hr =>
        ((hslips i s hs).answered r (haccepted ▸ hr)).resolve_left (hx.not_sent hs r)
      late := fun i s hs hi => by
        rw [haccepted] at hi
        exact (hslips i s hs).late (hlength ▸ hi) hi
      calm := haccepted ▸ h.calm }

theorem Broken.dead (h : Broken profiling m os served b x) (hx : x.Still) : x.worker = .dead := by
  refine h.down.resolve_left fun hw => ?_
  have hwork := hx.work
  unfold work? at hwork
  rw [hw] at hwork
  nomatch hwork

theorem Broken.taken (h : Broken profiling m os served b x) (hx : x.Still) {i : Nat} {s : Slip}
    (hs : x.slips[i]? = some s) (hi : served.length ≤ i) :
    ∃ reason, s.response = .taken (s.command.lost reason) := by
  cases h.lost i s hs hi with
  | hungUp hl => exact absurd hl (hx.not_hungUp hs)
  | heard reason hl => exact ⟨reason, hl⟩
  | sent hl hw c hc => nomatch hw.symm.trans (h.dead hx)

/-- In whatever way the two sides take turns, either all is done in the end or the worker died on the way. -/
theorem Comes.settles (h : Comes profiling m os x) :
    Settles (fun y => y.Still ∧
      (Done profiling m os y ∨ ∃ served b, Broken profiling m os served b y)) x := by
  refine Settles.of_invariant (I := Stands profiling m os) (fun ha hx hy => ?_)
    (fun hx hstill => ⟨hstill, ?_⟩) h.stands
  · have hnext := hx.step hy
    rw [ha] at hnext
    exact (List.append_nil os) ▸ hnext
  · exact hx.imp (fun ⟨served, held, pending, halive⟩ => halive.done hstill) id

theorem Broken.not_quiet (h : Broken profiling m os served b x) : ∃ c ∈ Order.accepted os, ¬ c.Quiet := by
  obtain ⟨rest, hrest⟩ := h.accepted
  exact ⟨b, hrest ▸ List.mem_append_right _ (.head _), fun hquiet => hquiet _ h.bursts⟩

/-! ## one after the other -/

/-- Each of these commands was run on what those before it left, and its caller has the one thing that is
owed for how it ended. -/
def Answers (m : Memory) (cs : List Command) (x : Exchange) : Prop :=
  ∀ before c later, cs = before ++ c :: later →
    ∃ r : Except Error c.Value, x.slips[before.length]? = some ⟨c, .taken ⟨c.Value, r⟩⟩ ∧
      ∀ r', Owes c.label (c.work (through m before)).ending r' ↔ r' = r

theorem answers_of {cs rest : List Command} (hcommands : x.slips.map (·.command) = cs ++ rest)
    (h : ∀ (i : Nat) (s : Slip) r, x.slips[i]? = some s → (receipts m cs)[i]? = some r →
      s.response = .taken r) :
    Answers m cs x := by
  rintro before c later rfl
  refine ⟨Queue.report c.label (c.work (through m before)).ending.outcome, ?_, fun _ => owes_iff⟩
  have hcommand : (x.slips.map (·.command))[before.length]? = some c := by
    rw [hcommands, List.append_assoc, List.getElem?_append_right (Nat.le_refl _), Nat.sub_self]
    rfl
  rw [List.getElem?_map] at hcommand
  obtain ⟨s, hs, rfl⟩ := Option.map_eq_some_iff.mp hcommand
  have hresponse := h _ s _ hs (Command.getElem?_receipts m before s.command later)
  rw [hs, ← show s.response = .taken ⟨s.command.Value, _⟩ from hresponse]

theorem Broken.answers (h : Broken profiling m os served b x) (hx : x.Still) : Answers m served x := by
  obtain ⟨rest, hrest⟩ := h.accepted
  have hcommands : x.slips.map (·.command) = served ++ (b :: rest ++ Order.late os) := by
    rw [h.commands, Order.filterMap_command?, hrest, List.append_assoc]
  exact answers_of hcommands fun i s r hs hr => (h.answered i s r hs hr).resolve_left (hx.not_sent hs r)

namespace Done

variable (h : Done profiling m os x)
include h

theorem answers : Answers m (Order.accepted os) x :=
  answers_of (h.commands.trans (Order.filterMap_command? os)) h.answered

theorem length_slips : x.slips.length = (Order.accepted os).length + (Order.late os).length := by
  rw [← List.length_map (f := Slip.command), h.commands, Order.filterMap_command?, List.length_append]

theorem drop_slips :
    x.slips.drop (Order.accepted os).length = (Order.late os).map fun c => ⟨c, .taken c.late⟩ := by
  have hcommands : (x.slips.drop (Order.accepted os).length).map (·.command) = Order.late os := by
    rw [List.map_drop, h.commands, Order.filterMap_command?, List.drop_left]
  rw [← hcommands, List.map_map]
  refine (List.map_id _).symm.trans (List.map_congr_left fun s hs => ?_)
  obtain ⟨i, hi⟩ := List.mem_iff_getElem?.mp hs
  rw [List.getElem?_drop] at hi
  have hresponse := h.late _ s hi (Nat.le_add_right ..)
  show s = ⟨s.command, .taken s.command.late⟩
  rw [← hresponse]

theorem take_slips :
    (x.slips.take (Order.accepted os).length).map (·.response) =
      (receipts m (Order.accepted os)).map .taken := by
  refine List.ext_getElem? fun i => ?_
  have hlength := Command.length_receipts m (Order.accepted os)
  rw [List.getElem?_map, List.getElem?_map, List.getElem?_take]
  split
  · rename_i hi
    have hslip : i < x.slips.length := by
      rw [h.length_slips]
      exact Nat.lt_of_lt_of_le hi (Nat.le_add_right ..)
    have hreceipt := List.getElem?_eq_getElem (hlength ▸ hi)
    rw [List.getElem?_eq_getElem hslip, hreceipt]
    exact congrArg some (h.answered i _ _ (List.getElem?_eq_getElem hslip) hreceipt)
  · rename_i hi
    rw [List.getElem?_eq_none (hlength ▸ Nat.le_of_not_lt hi)]
    rfl

end Done

/-- The exchange has come to what a queue is like that served orders. -/
structure Shows (s : Queue.Served) (x : Exchange) : Prop where
  memory : x.memory = s.memory
  labels : x.labels = s.queue.labels
  notes : x.notes = s.notes
  responses : x.slips.map (·.response) = s.receipts.map .taken

theorem Done.shows (h : Done profiling m os x) : Shows ((Queue.start profiling).serve m os) x := by
  rw [Queue.serve_of_open rfl]
  refine ⟨h.memory, ?_, h.notes, ?_⟩
  · rw [h.labels]
    cases profiling <;> rfl
  · calc
      x.slips.map (·.response)
        = (x.slips.take (Order.accepted os).length).map (·.response) ++
            (x.slips.drop (Order.accepted os).length).map (·.response) := by
          rw [← List.map_append, List.take_append_drop]
      _ = _ := by
          rw [h.take_slips, h.drop_slips, List.map_map, List.map_append, List.map_map]
          rfl

/-- Without a payload that bursts all is done in the end. -/
theorem Comes.settles_done (h : Comes profiling m os x) (hquiet : ∀ c ∈ Order.accepted os, c.Quiet) :
    Settles (Done profiling m os) x := by
  refine h.settles.mono fun y ⟨_, hy⟩ => hy.resolve_right fun ⟨served, b, hbroken⟩ => ?_
  obtain ⟨c, hc, hloud⟩ := hbroken.not_quiet
  exact hloud (hquiet c hc)

/-- Such an exchange does what a queue does that serves the same orders one after the other, in whatever way
its two sides take turns. -/
theorem settles_served (h : Comes profiling m os x) (hquiet : ∀ c ∈ Order.accepted os, c.Quiet) :
    Settles (Shows ((Queue.start profiling).serve m os)) x :=
  (h.settles_done hquiet).mono fun _ hy => hy.shows

/-- So a queue that runs jobs, as executors do, stands for an exchange. -/
theorem settles_runs {α : Type} {jobs : List (String × Job α)}
    (h : Comes profiling m (jobs.map fun j => .command (.ofJob j.1 j.2)) x) :
    Settles (Shows ((Queue.start profiling).runs m jobs)) x := by
  rw [← Queue.serve_ofJob]
  refine settles_served h fun c hc => ?_
  have haccepted := Order.accepted_map (jobs.map fun j => Command.ofJob j.1 j.2)
  rw [List.map_map] at haccepted
  obtain ⟨j, -, rfl⟩ := List.mem_map.mp ((congrArg (c ∈ ·) haccepted).mp hc)
  exact Command.quiet_ofJob j.1 j.2

/-! ## the whole discipline -/

def profile (x : Exchange) : List String := x.labels.getD []

end Offload.Accelerator.Exchange
