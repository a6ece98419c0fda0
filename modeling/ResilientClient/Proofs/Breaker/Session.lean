/-
Sessions: one breaker from its creation on, together with the permits that are out and a record of
everything that was done. The clock never goes back, since a move says how long it waits; any permit
may be settled at any time, in any order, and each only once. What a session remembers beyond its
breaker is never read by the breaker: it is there to say what the counters of the breaker stand for.
`step_next` lists all that a move can do, and `run_induction` carries a property through every run.
-/
import ResilientClient.Proofs.Breaker.Operations

namespace ResilientClient.Breaker

/-! ## Permits, moves and the record -/

/-- The permit of an admitted call: its number, whether the call is a trial, and the half-open
periods that had begun when it was given out. -/
structure Ticket where
  number : Nat
  trial : Bool
  period : Nat
deriving DecidableEq, Repr

/-- What is done with a breaker. -/
inductive Deed where
  | ask
  /-- Reports how the call of a permit ended; a dropped permit is ignored. -/
  | settle (number : Nat) (verdict : Verdict)
deriving DecidableEq, Repr

/-- A deed, after a wait of some nanoseconds. -/
structure Move where
  wait : Nat
  deed : Deed
deriving DecidableEq, Repr

inductive Happening where
  | admitted (ticket : Ticket)
  | rejected
  | ended (ticket : Ticket) (verdict : Verdict)
deriving DecidableEq, Repr

/-- An entry of the record: what happened, when and in which half-open period, with the breaker
before and after it. -/
structure Entry where
  time : Instant
  before : Breaker
  after : Breaker
  period : Nat
  what : Happening
deriving DecidableEq, Repr

structure Session where
  breaker : Breaker
  time : Instant
  /-- The half-open periods that have begun. -/
  period : Nat
  /-- The permits given out so far, the number of the next one. -/
  issued : Nat
  /-- The permits that have not been settled. -/
  held : List Ticket
  /-- The record, latest first. -/
  past : List Entry
deriving DecidableEq, Repr

namespace Session

def start (config : BreakerConfig) (now : Instant) : Session :=
  ⟨Breaker.create config now, now, 0, 0, [], []⟩

def pass (s : Session) (wait : Nat) : Session := { s with time := s.time + wait }

/-- The half-open periods once the breaker has turned into another one. -/
def periodAfter (s : Session) (after : Breaker) : Nat :=
  if s.breaker.state ≠ .halfOpen ∧ after.state = .halfOpen then s.period + 1 else s.period

/-- The entry that is made when the breaker turns into another one. -/
@[reducible] def entry (s : Session) (after : Breaker) (what : Happening) : Entry :=
  ⟨s.time, s.breaker, after, s.periodAfter after, what⟩

/-- Turns the breaker into another one and records what happened. -/
def enter (s : Session) (after : Breaker) (what : Happening) : Session :=
  { s with
    breaker := after
    period := s.periodAfter after
    past := s.entry after what :: s.past }

/-- The permit that is given out next. -/
def nextTicket (s : Session) (trial : Bool) (after : Breaker) : Ticket :=
  ⟨s.issued, trial, s.periodAfter after⟩

def grant (s : Session) (trial : Bool) (after : Breaker) : Session :=
  { s.enter after (.admitted (s.nextTicket trial after)) with
    issued := s.issued + 1
    held := s.nextTicket trial after :: s.held }

def conclude (s : Session) (ticket : Ticket) (verdict : Verdict) (after : Breaker) : Session :=
  { s.enter after (.ended ticket verdict) with held := s.held.erase ticket }

/-- Asks the breaker for a call. -/
def ask (s : Session) : Session :=
  match s.breaker.acquire s.time with
  | (some trial, after, _) => s.grant trial after
  | (none, after, _) => s.enter after .rejected

/-- The permit of a number, if it has not been settled. -/
def ticket? (s : Session) (number : Nat) : Option Ticket :=
  s.held.find? fun ticket => ticket.number == number

/-- Settles the permit of a number. -/
def settle (s : Session) (number : Nat) (verdict : Verdict) : Session :=
  match s.ticket? number with
  | none => s
  | some ticket => s.conclude ticket verdict (s.breaker.report s.time ticket.trial verdict).1

def step (s : Session) (move : Move) : Session :=
  match move.deed with
  | .ask => (s.pass move.wait).ask
  | .settle number verdict => (s.pass move.wait).settle number verdict

def run (s : Session) (moves : List Move) : Session := moves.foldl step s

@[simp] theorem run_nil (s : Session) : s.run [] = s := rfl

theorem run_cons (s : Session) (move : Move) (moves : List Move) :
    s.run (move :: moves) = (s.step move).run moves := rfl

theorem run_append (s : Session) (ms ns : List Move) : s.run (ms ++ ns) = (s.run ms).run ns :=
  List.foldl_append

/-! ## All that a move can do -/

theorem ticket?_mem {s : Session} {number : Nat} {ticket : Ticket} (h : s.ticket? number = some ticket) :
    ticket ∈ s.held :=
  List.mem_of_find?_eq_some h

theorem ticket?_number {s : Session} {number : Nat} {ticket : Ticket}
    (h : s.ticket? number = some ticket) : ticket.number = number := by
  simpa using List.find?_some h

theorem settle_of_ticket {s : Session} {number : Nat} {ticket : Ticket} (v : Verdict)
    (h : s.ticket? number = some ticket) :
    s.settle number v = s.conclude ticket v (s.breaker.report s.time ticket.trial v).1 := by
  unfold settle; rw [h]

theorem step_settle {s : Session} {number : Nat} {ticket : Ticket} (wait : Nat) (v : Verdict)
    (h : s.ticket? number = some ticket) :
    s.step ⟨wait, .settle number v⟩ =
      (s.pass wait).conclude ticket v (s.breaker.report (s.time + wait) ticket.trial v).1 :=
  settle_of_ticket (s := s.pass wait) v h

theorem ask_of_closed {s : Session} (h : s.breaker.state = .closed) :
    s.ask = s.grant false (s.breaker.rollWindow s.time) := by
  unfold ask; rw [acquire_of_closed h]

theorem ask_of_slept {s : Session} (h : s.breaker.state = .opened)
    (hs : s.breaker.sleptEnough s.time = true) :
    s.ask = s.grant true { s.breaker with state := .halfOpen, trials := 1 } := by
  unfold ask; rw [acquire_of_slept h hs]

theorem ask_of_room {s : Session} (h : s.breaker.state = .halfOpen)
    (hr : s.breaker.trials.toNat < s.breaker.config.trialLimit) :
    s.ask = s.grant true { s.breaker with trials := s.breaker.trials + 1 } := by
  unfold ask; rw [acquire_of_room h hr]

/-- A permit is found under its number as soon as it is given out. -/
theorem ticket?_grant (s : Session) (trial : Bool) (after : Breaker) :
    (s.grant trial after).ticket? s.issued = some (s.nextTicket trial after) := by
  simp [ticket?, grant, nextTicket]

/-- The sessions that a deed can lead to, once the wait before it is over. -/
inductive Next (s : Session) : Deed → Session → Prop
  | admitted {trial : Bool} {after : Breaker} :
      Answer s.breaker s.time (some trial) after → Next s .ask (s.grant trial after)
  | rejected {after : Breaker} :
      Answer s.breaker s.time none after → Next s .ask (s.enter after .rejected)
  | ended {ticket : Ticket} {verdict : Verdict} {after : Breaker} :
      s.ticket? ticket.number = some ticket → Effect s.breaker s.time ticket.trial verdict after →
      Next s (.settle ticket.number verdict) (s.conclude ticket verdict after)
  | missing {number : Nat} {verdict : Verdict} :
      s.ticket? number = none → Next s (.settle number verdict) s

theorem ask_next (s : Session) : Next s .ask s.ask := by
  have h := acquire_answer s.breaker s.time
  unfold ask
  rcases ha : s.breaker.acquire s.time with ⟨_ | trial, after, notices⟩ <;> rw [ha] at h
  · exact .rejected h
  · exact .admitted h

theorem settle_next (s : Session) (number : Nat) (verdict : Verdict) :
    Next s (.settle number verdict) (s.settle number verdict) := by
  unfold settle
  cases ht : s.ticket? number with
  | none => exact .missing ht
  | some ticket =>
    have hn := ticket?_number ht
    subst hn
    exact .ended ht (report_effect s.breaker s.time ticket.trial verdict)

theorem step_next (s : Session) : ∀ move : Move, Next (s.pass move.wait) move.deed (s.step move)
  | ⟨wait, .ask⟩ => ask_next (s.pass wait)
  | ⟨wait, .settle number verdict⟩ => settle_next (s.pass wait) number verdict

theorem next_time {s s' : Session} {deed : Deed} (h : Next s deed s') : s'.time = s.time := by
  cases h <;> rfl

theorem step_time (s : Session) (move : Move) : (s.step move).time = s.time + move.wait :=
  next_time (s.step_next move)

/-- What holds at the start, survives waiting and survives every deed holds after every run. -/
theorem run_induction {P : Session → Prop} (hpass : ∀ s wait, P s → P (s.pass wait))
    (hnext : ∀ s deed s', P s → Next s deed s' → P s') :
    ∀ (moves : List Move) (s : Session), P s → P (s.run moves)
  | [], _, h => h
  | move :: moves, s, h =>
    run_induction hpass hnext moves (s.step move)
      (hnext _ _ _ (hpass s move.wait h) (step_next s move))

/-! ## The configuration stays -/

theorem next_config {s s' : Session} {deed : Deed} (h : Next s deed s') :
    s'.breaker.config = s.breaker.config := by
  cases h with
  | admitted ha => exact ha.config
  | rejected ha => exact ha.config
  | ended _ he => exact he.config
  | missing => rfl

theorem step_config (s : Session) (move : Move) : (s.step move).breaker.config = s.breaker.config := by
  have h := next_config (s.step_next move)
  exact h

theorem run_config (config : BreakerConfig) (now : Instant) (moves : List Move) :
    ((start config now).run moves).breaker.config = config :=
  run_induction (P := fun s => s.breaker.config = config) (fun _ _ h => h)
    (fun _ _ _ h hn => (next_config hn).trans h) moves _ rfl

end Session

end ResilientClient.Breaker
