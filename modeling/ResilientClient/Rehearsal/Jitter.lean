/-
Rehearsals of delays: whether chance keeps a delay between its base and a quarter more, and below
its ceiling.
-/
import ResilientClient.Retry.Backoff

namespace ResilientClient.ExponentialBackoff

/-- The delay without chance. -/
def base (b : ExponentialBackoff) (attempt : Nat) : Duration := (b.growth attempt).shorter b.ceiling

/-- A quarter more than the delay without chance, to the nearest nanosecond. -/
def quarterMore (b : ExponentialBackoff) (attempt : Nat) : Duration :=
  .ofNanos ((5 * (b.base attempt).nanos + 2) / 4)

/-- The delay for one draw is within the bounds. -/
def fits (b : ExponentialBackoff) (attempt : Nat) (draw : Binary64) : Bool :=
  let delay := b.delay draw attempt
  decide (b.base attempt ≤ delay) && decide (delay ≤ b.quarterMore attempt) &&
    decide (delay ≤ b.ceiling)

/-- Some of the fractions that may be drawn. -/
def sampleDraws : List Binary64 :=
  [.zero false, .ofRatio false 1 16, .ofRatio false 1 8, .ofRatio false 3 16,
   .ofRatio false 249 1000]

/-- The delays for all samples are within the bounds. -/
def fitsAll (b : ExponentialBackoff) (attempt : Nat) : Bool := sampleDraws.all (b.fits attempt)

end ResilientClient.ExponentialBackoff
