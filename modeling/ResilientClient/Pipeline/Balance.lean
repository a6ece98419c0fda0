/-
Balancing: a call to a service goes to one of its instances. Failures to connect move it to another
instance, other faults of the instance are first tried again there, and each kind has its own
budget. Calls to a URL pass unchanged.
-/
import ResilientClient.Pipeline.Call

namespace ResilientClient

/-- Where the next attempt goes after a failure. -/
inductive Failover where
  | sameInstance
  | nextInstance
  | stop
deriving DecidableEq, Repr

/-- The failure behind all wrappers decides: one to connect asks for another instance, a broken
exchange, a timeout and a 5xx status for the same one, and anything else is final. -/
def Failover.of (e : Error) : Failover :=
  match e.rootCause with
  | .transport .connect _ => .nextInstance
  | .transport .exchange _ => .sameInstance
  | .body _ => .sameInstance
  | .timeout _ => .sameInstance
  | .executionTimeout _ _ => .sameInstance
  | cause =>
    match cause.status? with
    | some status => if status.isServerError then .sameInstance else .stop
    | none => .stop

namespace Pipeline

variable {ε : Type}

/-! ## Log lines -/

def sameInstanceLine (call : Call) (service : String) (server : Server) (e : Error) : TraceLine :=
  ⟨.debug, "Retrying same instance",
    [("method", call.method), ("service", service), ("server", server.text),
      ("error", e.message)]⟩

def nextInstanceLine (call : Call) (service : String) (server : Server) (e : Error) : TraceLine :=
  ⟨.debug, "Failing over to next instance",
    [("method", call.method), ("service", service), ("failed", server.text),
      ("error", e.message)]⟩

def balancerExhaustedLine (call : Call) (service : String) (attempts : Nat) : TraceLine :=
  ⟨.debug, "Load balancer retries exhausted",
    [("method", call.method), ("service", service), ("attempts", toString attempts)]⟩

/-! ## Attempts -/

/-- The instance for the next attempt: the current one, or a newly looked up one. -/
def choose (resolver : Resolver ε) (service : String) :
    Option Server → Stage ε (Except Error Server)
  | some server => .done (.ok server)
  | none =>
    (Stage.outside (resolver service)).andThen fun outcome =>
      (Stage.note [.resolved service outcome]).andThen fun _ => .done outcome

/-- How far the budgets of one call are used up. -/
structure BalanceState where
  attempts : Nat
  same : Nat
  next : Nat
  /-- The current instance. -/
  server : Option Server

/-- The attempts from a state on, when the counter has room for `room` more. An attempt without room
is given an instance and ends the call with `Error.attemptOverflow`, which a layer around it takes
as any other failure. -/
def balanceFrom (config : BalancerConfig) (resolver : Resolver ε) (inner : Service ε) (call : Call)
    (service : String) (room : Nat) (state : BalanceState) : Stage ε Outcome :=
  (choose resolver service state.server).andThen fun
    | .error e => .done (.error e)
    | .ok server =>
      match room with
      | 0 => .done (.error .attemptOverflow)
      | room + 1 =>
        (inner (call.toServer server)).andThen fun
          | .ok response => .done (.ok response)
          | .error e =>
            let attempts := state.attempts + 1
            let failover := Failover.of e
            if failover = .stop then .done (.error e)
            else if failover = .sameInstance ∧ state.same < config.retriesOnSame then
              (Stage.log (sameInstanceLine call service server e)).andThen fun _ =>
                balanceFrom config resolver inner call service room
                  ⟨attempts, state.same + 1, state.next, some server⟩
            else if state.next < config.retriesOnNext then
              (Stage.log (nextInstanceLine call service server e)).andThen fun _ =>
                balanceFrom config resolver inner call service room
                  ⟨attempts, 0, state.next + 1, none⟩
            else
              (Stage.log (balancerExhaustedLine call service attempts)).andThen fun _ =>
                .done (.error (.exhausted attempts e))

/-- The failure of a call to a service without a resolver. -/
def noResolver (call : Call) (service : String) : Error :=
  .configuration (call.method ++ ": target '" ++ service ++
    "' is a logical service but no server resolver is configured")

/-- The service that balances. -/
def balancing (config : BalancerConfig) (resolver : Option (Resolver ε)) (inner : Service ε) :
    Service ε :=
  fun call =>
    match call.target with
    | .url _ => inner call
    | .service name =>
      match resolver with
      | none => .done (.error (noResolver call name))
      | some resolver =>
        balanceFrom config resolver inner call name counterMax ⟨0, 0, 0, none⟩

end Pipeline

end ResilientClient
