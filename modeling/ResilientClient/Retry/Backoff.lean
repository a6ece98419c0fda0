/-
The delay before a retry. An exponential delay grows with the attempts, never beyond its own
maximum and never beyond a day, whatever the multiplier is.
-/
import ResilientClient.Config.Basic
import ResilientClient.Duration.Seconds

namespace ResilientClient

namespace ExponentialBackoff

/-- The longest delay, in seconds: one day. -/
def daySeconds : Binary64 := .ofNat 86400

/-- The factor in use: the configured one unless it is negative, infinite or not a number. -/
def factor (b : ExponentialBackoff) : Binary64 :=
  if b.multiplier.isFinite && !b.multiplier.lt (.ofNat 0) then b.multiplier else .ofNat 1

/-- The largest exponent. -/
def maxExponent : Nat := twoTo 31 - 1

/-- The longest delay of this configuration, in seconds. -/
def ceilingSeconds (b : ExponentialBackoff) : Binary64 := b.max.toBinary64.minimum daySeconds

/-- The longest delay of this configuration. -/
def ceiling (b : ExponentialBackoff) : Duration := .ofBinary64 b.ceilingSeconds

/-- The delay after the `attempt`-th attempt before chance is added, in seconds. -/
def growthSeconds (b : ExponentialBackoff) (attempt : Nat) : Binary64 :=
  b.initial.toBinary64 * b.factor.pow (min (attempt - 1) maxExponent)

/-- The delay after the `attempt`-th attempt before chance is added. -/
def growth (b : ExponentialBackoff) (attempt : Nat) : Duration :=
  let seconds := b.growthSeconds attempt
  .ofBinary64 <|
    if seconds.isFinite then (seconds.minimum b.ceilingSeconds).maximum (.ofNat 0)
    else b.ceilingSeconds

/-- The delay after the `attempt`-th attempt; with jitter the fraction `draw` of it is added. -/
def delay (b : ExponentialBackoff) (draw : Binary64) (attempt : Nat) : Duration :=
  let base := b.growth attempt
  let drawn :=
    if b.jitter then
      Duration.ofNanos (base.nanos + (Duration.ofBinary64 (draw * base.toBinary64)).nanos)
    else base
  drawn.shorter b.ceiling

end ExponentialBackoff

namespace Backoff

/-- The delay after the `attempt`-th attempt. -/
def delay (draw : Binary64) (attempt : Nat) : Backoff → Duration
  | .none => .zero
  | .fixed d => d
  | .exponential growth => growth.delay draw attempt

end Backoff

end ResilientClient
