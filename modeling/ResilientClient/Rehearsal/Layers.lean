/-
Rehearsals of layers: a service that follows a script, wrapped in the layers of a pipeline in any
order, and one call after the other.
-/
import ResilientClient.Pipeline.Balance
import ResilientClient.Pipeline.Guard
import ResilientClient.Pipeline.Retry
import ResilientClient.Rehearsal.Peers

namespace ResilientClient.Rehearsal

inductive Layer where
  | retry
  | balancer
  | breaker
deriving DecidableEq, Repr

/-- What the layers of one rehearsal are made of. -/
structure Setting where
  policy : RetryPolicy
  balancer : BalancerConfig
  /-- The instances that each balancer chooses from, with a resolver of its own; without them there
  is no resolver. -/
  servers : Option (List Server)
  breaker : BreakerConfig
  fallback : Option (Fallback Peers)

namespace Setting

/-- The key of the breaker. -/
def breakerKey : String := "K"

/-- The listener of the retries. -/
def listener : Listener := .recorder "l"

/-- The service that the balancers have instances of. -/
def service : String := "svc"

/-- A service inside the layer at a position of the stack; a balancer uses the resolver of its
position. -/
def wrap (s : Setting) (inner : Service Peers) : Layer × Nat → Service Peers
  | (.retry, _) => Pipeline.retrying s.policy [listener] inner
  | (.balancer, position) =>
    Pipeline.balancing s.balancer (s.servers.map fun _ => Peers.resolve position) inner
  | (.breaker, _) => Pipeline.guarding breakerKey s.breaker.executionTimeout s.fallback inner

/-- A service inside layers, the outermost first. -/
def stack (s : Setting) (layers : List Layer) (inner : Service Peers) : Service Peers :=
  layers.zipIdx.foldr (fun layer inner => s.wrap inner layer) inner

/-- The world before the first call, with a resolver for each layer. -/
def world (s : Setting) (layers : List Layer) : World Peers :=
  ⟨⟨[], { resolvers := layers.map fun _ => .empty }⟩,
    ((BreakerRegistry.empty s.breaker).forKey breakerKey 0).2, []⟩

/-- Sets the instances that a layer chooses from. -/
def fill (s : Setting) : Layer × Nat → Stage Peers Unit
  | (.balancer, position) =>
    match s.servers with
    | some servers => Peers.setServers position service servers
    | none => .done ()
  | _ => .done ()

/-- Sets the instances that the layers choose from. -/
def fillAll (s : Setting) : List (Layer × Nat) → Stage Peers Unit
  | [] => .done ()
  | layer :: rest => (s.fill layer).andThen fun _ => fillAll s rest

end Setting

/-- One call through the layers: its result, what the service was asked and the listener heard
during it, the state of the breaker and the time at its end. -/
structure Passage where
  outcome : Except Error (Http.Status × List (Except Error Bytes))
  calls : List Call
  events : List (String × Event)
  state : Option CircuitState
  time : Instant

/-- Makes one call and reads the response to its end. -/
def pass (service : Service Peers) (call : Call) :
    Stage Peers (Except Error (Http.Status × List (Except Error Bytes))) :=
  (service call).andThen fun
    | .error e => .done (.error e)
    | .ok response =>
      (response.body.take none).andThen fun (items, _) => .done (.ok (response.status, items))

/-- Makes `n` calls with a gap after each. -/
def passes (service : Service Peers) (call : Call) (gap : Duration) :
    Nat → Instant → World Peers → List Passage × World Peers
  | 0, _, w => ([], w)
  | n + 1, t, w =>
    let (outcome, t', w') := (pass service call).run t w
    let passage := {
      outcome
      calls := gained w.outside.own.calls w'.outside.own.calls
      events := World.eventsSince w w'
      state := (w'.breakers.get? Setting.breakerKey).map Breaker.state
      time := t' }
    let (later, last) := passes service call gap n (t' + Fiber.waitOf gap) w'
    (passage :: later, last)

/-- Makes `n` calls through layers around a service that follows a script. -/
def Setting.play (s : Setting) (layers : List Layer) (script : Script) (call : Call)
    (gap : Duration) (n : Nat) : List Passage × World Peers :=
  let ((), t, w) := (s.fillAll layers.zipIdx).run 0 (s.world layers)
  passes (s.stack layers (Peers.service script)) call gap n t w

end ResilientClient.Rehearsal
