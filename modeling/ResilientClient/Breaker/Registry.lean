/-
Breakers by key: the key of a method's breaker, and a registry that creates each breaker when it is
first asked for.
-/
import ResilientClient.Breaker.Basic
import ResilientClient.Trace

namespace ResilientClient

namespace Breaker

/-- The key of a breaker: the method, then the uniquifier after a `#`, then the target after an
`@`. -/
def key (method : String) (uniquifier target : Option String) : String :=
  method ++ ((uniquifier.map ("#" ++ ·)).getD "") ++ ((target.map ("@" ++ ·)).getD "")

end Breaker

/-- The log line of a notice from the breaker of a key. -/
def BreakerNotice.line (key : String) : BreakerNotice → TraceLine
  | .admittingTrials => ⟨.debug, "circuit half-open, admitting trial calls", [("breaker", key)]⟩
  | .closedByTrial => ⟨.info, "circuit closed after successful trial", [("breaker", key)]⟩
  | .reopened => ⟨.warn, "trial call failed, circuit re-opened", [("breaker", key)]⟩
  | .opened failures calls =>
    ⟨.warn, "circuit opened",
      [("breaker", key), ("failures", toString failures.toNat), ("calls", toString calls.toNat)]⟩

/-- Breakers of one configuration, each under its key. -/
structure BreakerRegistry where
  config : BreakerConfig
  breakers : List (String × Breaker)
deriving DecidableEq, Repr

/-- The admission of one call by the breaker of a key. -/
structure Permit where
  key : String
  /-- Whether the call is a trial. -/
  trial : Bool
deriving DecidableEq, Repr

namespace BreakerRegistry

def empty (config : BreakerConfig) : BreakerRegistry := ⟨config, []⟩

/-- The breaker of a key, if there is one. -/
def get? (r : BreakerRegistry) (key : String) : Option Breaker :=
  (r.breakers.find? fun entry => entry.1 == key).map Prod.snd

def size (r : BreakerRegistry) : Nat := r.breakers.length

/-- The breaker of a key, created now if there is none. -/
def forKey (r : BreakerRegistry) (key : String) (now : Instant) : Breaker × BreakerRegistry :=
  match r.get? key with
  | some b => (b, r)
  | none =>
    let b := Breaker.create r.config now
    (b, { r with breakers := r.breakers ++ [(key, b)] })

/-- Puts a breaker in the place of the one of its key. -/
def replace (r : BreakerRegistry) (key : String) (b : Breaker) : BreakerRegistry :=
  { r with breakers := r.breakers.map fun entry => if entry.1 = key then (key, b) else entry }

/-- Asks the breaker of a key for a call. -/
def acquire (r : BreakerRegistry) (key : String) (now : Instant) :
    Option Permit × BreakerRegistry × List TraceLine :=
  let (b, r) := r.forKey key now
  let (answer, b, notices) := b.acquire now
  (answer.map fun trial => ⟨key, trial⟩, r.replace key b, notices.map (BreakerNotice.line key))

/-- Reports how the call of a permit ended. -/
def report (r : BreakerRegistry) (permit : Permit) (now : Instant) (verdict : Verdict) :
    BreakerRegistry × List TraceLine :=
  match r.get? permit.key with
  | none => (r, [])
  | some b =>
    let (b, notices) := b.report now permit.trial verdict
    (r.replace permit.key b, notices.map (BreakerNotice.line permit.key))

/-- Drops the permit of a call that will not be reported. -/
def release (r : BreakerRegistry) (permit : Permit) : BreakerRegistry :=
  match r.get? permit.key with
  | none => r
  | some b => r.replace permit.key (if permit.trial then b.releaseTrial else b)

end BreakerRegistry

end ResilientClient
