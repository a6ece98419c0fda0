/-
Circuit breakers. A closed breaker counts calls and failures in a window and opens when there are
too many failures; an open one rejects calls until its sleep window is over; a half-open one admits
a few trials, of which a success closes it and a failure opens it again.
-/
import ResilientClient.Config.Basic
import ResilientClient.Fiber

namespace ResilientClient

inductive CircuitState where
  /-- Calls go through. -/
  | closed
  /-- Calls are rejected. -/
  | opened
  /-- A few trials go through. -/
  | halfOpen
deriving DecidableEq, Repr

namespace CircuitState

def text : CircuitState → String
  | .closed => "Closed"
  | .opened => "Open"
  | .halfOpen => "HalfOpen"

end CircuitState

/-- A breaker; its counters are 32 bits wide. -/
structure Breaker where
  config : BreakerConfig
  state : CircuitState
  /-- When the window began in which calls are counted. -/
  windowStart : Instant
  calls : UInt32
  failures : UInt32
  openedAt : Instant
  /-- The trials that have been admitted and not yet reported. -/
  trials : UInt32
deriving DecidableEq, Repr

/-- How an admitted call ended. -/
inductive Verdict where
  | success
  | failure
  /-- The outcome says nothing about the service; a dropped call counts as one. -/
  | ignored
deriving DecidableEq, Repr

/-- What an operation on a breaker has to tell. -/
inductive BreakerNotice where
  | admittingTrials
  | closedByTrial
  | reopened
  | opened (failures calls : UInt32)
deriving DecidableEq, Repr

namespace Breaker

/-- A closed breaker that has counted nothing. -/
def create (config : BreakerConfig) (now : Instant) : Breaker :=
  ⟨config, .closed, now, 0, 0, now, 0⟩

/-- Starts a new window when the current one is over. -/
def rollWindow (b : Breaker) (now : Instant) : Breaker :=
  if b.config.rollingWindow.nanos ≤ now - b.windowStart then
    { b with windowStart := now, calls := 0, failures := 0 }
  else b

/-- The breaker closed, with a new window. -/
def close (b : Breaker) (now : Instant) : Breaker :=
  { b with state := .closed, windowStart := now, calls := 0, failures := 0, trials := 0 }

/-- The breaker opened. -/
def trip (b : Breaker) (now : Instant) : Breaker :=
  { b with state := .opened, openedAt := now, trials := 0 }

/-! ## Admission -/

/-- The open breaker waits no longer. -/
def sleptEnough (b : Breaker) (now : Instant) : Bool :=
  decide (b.config.sleepWindow.nanos ≤ now - b.openedAt)

/-- Turns an open breaker half-open when its sleep window is over. -/
def wake (b : Breaker) (now : Instant) : Breaker × List BreakerNotice :=
  if b.state = .opened ∧ b.sleptEnough now then
    ({ b with state := .halfOpen, trials := 0 }, [.admittingTrials])
  else (b, [])

/-- Room for one more trial; there is always room for one. -/
def hasTrialRoom (b : Breaker) : Bool := decide (b.trials.toNat < b.config.trialLimit)

/-- Asks a breaker that has been woken for a call: whether the call is a trial, or nothing when it
is rejected. -/
def admission (b : Breaker) (now : Instant) : Option Bool × Breaker :=
  match b.state with
  | .closed => (some false, b.rollWindow now)
  | .halfOpen =>
    if b.hasTrialRoom then (some true, { b with trials := b.trials + 1 }) else (none, b)
  | .opened => (none, b)

/-- Asks for a call: whether it is a trial, or nothing when it is rejected. -/
def acquire (b : Breaker) (now : Instant) : Option Bool × Breaker × List BreakerNotice :=
  let (woken, notices) := b.wake now
  let (answer, after) := woken.admission now
  (answer, after, notices)

/-! ## Reports -/

/-- One more call is counted. -/
def countSuccess (b : Breaker) : Breaker := { b with calls := b.calls + 1 }

/-- One more call is counted, and one more failure. -/
def countFailure (b : Breaker) : Breaker :=
  { b with calls := b.calls + 1, failures := b.failures + 1 }

/-- Reports a call that succeeded. -/
def reportSuccess (b : Breaker) (now : Instant) (trial : Bool) : Breaker × List BreakerNotice :=
  match b.state with
  | .halfOpen => if trial then (b.close now, [.closedByTrial]) else (b, [])
  | .closed => ((b.rollWindow now).countSuccess, [])
  | .opened => (b, [])

/-- The calls and failures of the window open the circuit. -/
def overThreshold (b : Breaker) : Bool :=
  decide (b.config.minimumCalls ≤ b.calls) && decide (b.config.failureThreshold ≤ b.failures)

/-- Reports a call that failed. -/
def reportFailure (b : Breaker) (now : Instant) (trial : Bool) : Breaker × List BreakerNotice :=
  match b.state with
  | .halfOpen => if trial then (b.trip now, [.reopened]) else (b, [])
  | .closed =>
    let counted := (b.rollWindow now).countFailure
    if counted.overThreshold then (counted.trip now, [.opened counted.failures counted.calls])
    else (counted, [])
  | .opened => (b, [])

/-- Gives back the place of a trial whose outcome is not reported. -/
def releaseTrial (b : Breaker) : Breaker :=
  if b.state = .halfOpen then { b with trials := if b.trials = 0 then 0 else b.trials - 1 } else b

/-- Reports how an admitted call ended. -/
def report (b : Breaker) (now : Instant) (trial : Bool) : Verdict → Breaker × List BreakerNotice
  | .success => b.reportSuccess now trial
  | .failure => b.reportFailure now trial
  | .ignored => (if trial then b.releaseTrial else b, [])

end Breaker

end ResilientClient
