/-
Retries: the inner service is called again as long as the policy says so. The attempts are counted
in 32 bits.
-/
import ResilientClient.Pipeline.Call
import ResilientClient.Retry.Policy

namespace ResilientClient.Pipeline

variable {ε : Type}

/-- The log line of a retry. -/
def retryLine (method : String) (attempt : Nat) (error : Error) (delay : Duration) : TraceLine :=
  ⟨.debug, "Retrying call after error",
    [("method", method), ("retry", toString attempt), ("error", error.message),
      ("backoff_ms", toString delay.millis)]⟩

/-- The log line of the last failure. -/
def exhaustedLine (method : String) (attempt : Nat) (error : Error) : TraceLine :=
  ⟨.debug, "Retries exhausted",
    [("method", method), ("attempts", toString attempt), ("error", error.message)]⟩

/-- The attempts from the `attempt`-th on, when the counter has room for `room` more. Without room
the call ends with `Error.attemptOverflow`, which a layer around it takes as any other failure. -/
def attemptsFrom (policy : RetryPolicy) (listeners : List Listener) (inner : Stage ε Outcome)
    (method : String) : (room : Nat) → (attempt : Nat) → Stage ε Outcome
  | 0, _ => .done (.error .attemptOverflow)
  | room + 1, attempt =>
    inner.andThen fun
      | .ok response => .done (.ok response)
      | .error e =>
        match policy e attempt with
        | .notRetryable => .done (.error e)
        | .exhausted =>
          (Stage.log (exhaustedLine method attempt e)).andThen fun _ =>
            .done (.error (.exhausted attempt e))
        | .retry delay =>
          (Stage.log (retryLine method attempt e delay)).andThen fun _ =>
            (Stage.tell listeners (.retrying method attempt e delay)).andThen fun _ =>
              (Fiber.sleep delay).andThen fun _ =>
                attemptsFrom policy listeners inner method room (attempt + 1)

/-- The service that retries. -/
def retrying (policy : RetryPolicy) (listeners : List Listener) (inner : Service ε) : Service ε :=
  fun call => attemptsFrom policy listeners (inner call) call.method counterMax 1

end ResilientClient.Pipeline
