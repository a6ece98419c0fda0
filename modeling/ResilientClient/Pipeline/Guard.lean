/-
The guard of a breaker: rejected calls never go further, and admitted ones are reported. Rejections
and reported failures go to the fallback, whose result is final; failures that are the client's own
fault are returned untouched and say nothing about the service.
-/
import ResilientClient.Pipeline.Call

namespace ResilientClient.Pipeline

variable {ε : Type}

/-! ## The breaker of a key -/

/-- Asks the breaker for a call. -/
def acquire (key : String) : Stage ε (Option Permit) :=
  .modifyGet fun t w =>
    let (answer, breakers, lines) := w.breakers.acquire key t
    let entry := match answer with
      | some permit => Occurrence.admitted permit
      | none => Occurrence.rejected key
    (answer, World.note { w with breakers } (lines.map Occurrence.logged ++ [entry]))

/-- Reports how an admitted call ended. -/
def report (permit : Permit) (verdict : Verdict) : Stage ε Unit :=
  .modifyGet fun t w =>
    let (breakers, lines) := w.breakers.report permit t verdict
    ((), World.note { w with breakers }
      (lines.map Occurrence.logged ++ [Occurrence.reported permit verdict]))

/-- Drops the permit of a call that is cut off. -/
def release (permit : Permit) (w : World ε) : World ε :=
  { w with breakers := w.breakers.release permit }

/-! ## Calls -/

/-- Runs a call for at most the given time. -/
def limited (limit : Option Duration) (method : String) (work : Stage ε Outcome) :
    Stage ε Outcome :=
  match limit with
  | none => work
  | some limit =>
    (work.timeout limit).andThen fun
      | some outcome => .done outcome
      | none => .done (.error (.executionTimeout method limit))

/-- The log line of a rejected call. -/
def rejectedLine (call : Call) (key : String) : TraceLine :=
  ⟨.debug, "Circuit open, call rejected", [("method", call.method), ("breaker", key)]⟩

/-- The log line of a call to the fallback. -/
def fallbackLine (call : Call) (cause : Error) : TraceLine :=
  ⟨.debug, "Invoking fallback", [("method", call.method), ("cause", cause.message)]⟩

/-- The result of the fallback for a failure, or the failure itself without one. -/
def recover (fallback : Option (Fallback ε)) (call : Call) (cause : Error) : Stage ε Outcome :=
  match fallback with
  | none => .done (.error cause)
  | some fallback =>
    (Stage.log (fallbackLine call cause)).andThen fun _ =>
      (Stage.note [.recovered call.method cause]).andThen fun _ =>
        Stage.outside (fallback call.method call.args cause)

/-- The failures that say nothing about the service. -/
def isOwnFault (e : Error) : Bool := e.isClientRequestError || e.isConstruction

/-- Reports the outcome of an admitted call and recovers from a failure of the service. -/
def conclude (fallback : Option (Fallback ε)) (call : Call) (permit : Permit) :
    Outcome → Stage ε Outcome
  | .ok response => (report permit .success).andThen fun _ => .done (.ok response)
  | .error e =>
    if isOwnFault e then (report permit .ignored).andThen fun _ => .done (.error e)
    else (report permit .failure).andThen fun _ => recover fallback call e

/-- The service behind the breaker of a key. -/
def guarding (key : String) (limit : Option Duration) (fallback : Option (Fallback ε))
    (inner : Service ε) : Service ε :=
  fun call =>
    (acquire key).andThen fun
      | none =>
        (Stage.log (rejectedLine call key)).andThen fun _ =>
          recover fallback call (.circuitOpen key)
      | some permit =>
        ((limited limit call.method (inner call)).protect (release permit)).andThen
          (conclude fallback call permit)

end ResilientClient.Pipeline
