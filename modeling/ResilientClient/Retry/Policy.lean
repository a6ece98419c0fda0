/-
Retry policies: what is done after a failed attempt. A server's hint can only shorten a delay, and
failures of building a request are never retried.
-/
import ResilientClient.Error
import ResilientClient.Retry.Backoff

namespace ResilientClient

/-- What is done after a failed attempt. -/
inductive RetryDecision where
  /-- Another attempt after a delay. -/
  | retry (delay : Duration)
  /-- No more attempts; the failure is wrapped. -/
  | exhausted
  /-- No more attempts; the failure is final as it is. -/
  | notRetryable
deriving DecidableEq, Repr

/-- Decides on the failure of the attempt of that number, counted from one. -/
abbrev RetryPolicy := Error → Nat → RetryDecision

namespace RetryPolicy

/-- A delay cut to the wait that a failure's server asked for. -/
def hinted (e : Error) (delay : Duration) : Duration :=
  match e.retryHint? with
  | some hint => hint.delay.shorter delay
  | none => delay

/-- At most `maxRetries` retries with a backoff; `draw` is the fraction that jitter adds after each
attempt. -/
def bounded (draw : Nat → Binary64) (maxRetries : Nat) (backoff : Backoff) : RetryPolicy :=
  fun e attempt =>
    if e.isConstruction then .notRetryable
    else if maxRetries < attempt then .exhausted
    else .retry (hinted e (backoff.delay (draw attempt) attempt))

/-- The policy for the failures that satisfy a predicate; all others are final. -/
def only (retryable : Error → Bool) (inner : RetryPolicy) : RetryPolicy :=
  fun e attempt => if retryable e then inner e attempt else .notRetryable

/-- The policy for all failures but those that are the client's own fault. -/
def excludingClientErrors (inner : RetryPolicy) : RetryPolicy :=
  only (fun e => !e.isClientRequestError) inner

end RetryPolicy

namespace RetryConfig

/-- The policy of the budget and the backoff of a configuration. -/
def boundedPolicy (c : RetryConfig) (draw : Nat → Binary64) : RetryPolicy :=
  .bounded draw c.maxRetries c.backoff

/-- The failures that a configuration retries: neither an open circuit nor a body that is too
large, and failures that are the client's own fault only if it says so. -/
def retries (c : RetryConfig) (e : Error) : Bool :=
  !e.isCircuitOpen && !e.isBodyTooLarge && (c.retryClientErrors || !e.isClientRequestError)

/-- The policy of a configuration. -/
def policy (c : RetryConfig) (draw : Nat → Binary64) : RetryPolicy :=
  .only c.retries (c.boundedPolicy draw)

end RetryConfig

end ResilientClient
