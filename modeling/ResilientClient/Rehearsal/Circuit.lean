/-
Rehearsals of breakers: permits are asked for, held under a number and reported in any order, while
the clock moves on.
-/
import ResilientClient.Breaker.Registry
import ResilientClient.Error

namespace ResilientClient.Rehearsal

/-- One thing that is done with the breakers. -/
inductive CircuitAct where
  /-- Moves the clock on by exactly a span. -/
  | advance (span : Duration)
  | find (key : String)
  | create (key : String)
  | count
  /-- Asks the breaker of a key for a permit, which is held under a number. -/
  | acquire (number : Nat) (key : String)
  /-- Reports the permit held under a number, or drops it without a verdict. -/
  | finish (number : Nat) (verdict : Option Verdict)
deriving DecidableEq, Repr

inductive CircuitReport where
  | done
  | found (key : Option String)
  | created (key : String) (threshold : Nat)
  | counted (count : Nat)
  | admitted
  | rejected (error : Error)
  /-- No permit is held under the number. -/
  | noPermit
deriving DecidableEq, Repr

/-- The breakers with the permits that are held, and the clock. -/
structure Circuit where
  registry : BreakerRegistry
  held : List (Nat × Permit)
  time : Instant
  lines : List TraceLine
deriving DecidableEq, Repr

namespace Circuit

def start (config : BreakerConfig) : Circuit := ⟨.empty config, [], 0, []⟩

/-- The permit held under a number. -/
def permit? (c : Circuit) (number : Nat) : Option Permit :=
  (c.held.find? fun entry => entry.1 == number).map Prod.snd

/-- Lets go of the permit under a number. -/
def forget (c : Circuit) (number : Nat) : Circuit :=
  { c with held := c.held.filter fun entry => entry.1 != number }

/-- Drops the permit under a number without a verdict. -/
def dropPermit (c : Circuit) (number : Nat) : Circuit :=
  match c.permit? number with
  | none => c
  | some permit => { c.forget number with registry := c.registry.release permit }

/-- Asks for a permit; the one that was held under the number is dropped for the new one. -/
def acquire (c : Circuit) (number : Nat) (key : String) : CircuitReport × Circuit :=
  let (answer, registry, lines) := c.registry.acquire key c.time
  let asked := { c with registry, lines := c.lines ++ lines }
  match answer with
  | none => (.rejected (.circuitOpen key), asked)
  | some permit =>
    let freed := asked.dropPermit number
    (.admitted, { freed with held := (number, permit) :: freed.held })

/-- Reports or drops a permit. -/
def finish (c : Circuit) (number : Nat) (verdict : Option Verdict) : CircuitReport × Circuit :=
  match c.permit? number with
  | none => (.noPermit, c)
  | some permit =>
    match verdict with
    | none => (.done, c.dropPermit number)
    | some verdict =>
      let (registry, lines) := c.registry.report permit c.time verdict
      (.done, { c.forget number with registry, lines := c.lines ++ lines })

/-- Does one thing. -/
def perform (c : Circuit) : CircuitAct → CircuitReport × Circuit
  | .advance span => (.done, { c with time := c.time + span.nanos })
  | .find key => (.found ((c.registry.get? key).map fun _ => key), c)
  | .create key =>
    let (breaker, registry) := c.registry.forKey key c.time
    (.created key breaker.config.failureThreshold.toNat, { c with registry })
  | .count => (.counted c.registry.size, c)
  | .acquire number key => c.acquire number key
  | .finish number verdict => c.finish number verdict

/-- Does one thing after the other; each comes with a key, whose breaker's state is reported
too. -/
def play : List (CircuitAct × String) → Circuit →
    List (CircuitReport × Option CircuitState) × Circuit
  | [], c => ([], c)
  | (act, key) :: rest, c =>
    let (report, next) := c.perform act
    let (reports, last) := play rest next
    ((report, (next.registry.get? key).map Breaker.state) :: reports, last)

end Circuit

end ResilientClient.Rehearsal
