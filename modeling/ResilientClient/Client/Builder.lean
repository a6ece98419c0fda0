/-
Building clients: what is declared and what the methods share, the checks in their order, and the
pipeline of each method, from the outside in: retries, balancing, the guard of a breaker, and the
attempt itself. Neither breakers nor fallbacks are asked for before all checks have passed.
-/
import ResilientClient.Client.Basic
import ResilientClient.HttpTransport
import ResilientClient.Pipeline.Balance
import ResilientClient.Pipeline.Execute
import ResilientClient.Pipeline.Guard
import ResilientClient.Pipeline.Retry

namespace ResilientClient

/-- What a client takes from its surroundings. -/
structure Surroundings (ε : Type) where
  /-- The time of day, in seconds since the beginning of 1970; it stands still. -/
  wallClock : Nat
  /-- The fraction of a delay that jitter adds after each attempt, the same in every invocation. -/
  draw : Nat → Binary64
  /-- What the transport over HTTP sends requests through. -/
  network : Network ε

/-- A client while it is being configured. -/
structure Builder (ε : Type) where
  target : Target
  config : ClientConfig
  methods : List Endpoint := []
  /-- Further methods, or the failures to read them. -/
  contracts : List (Except Error (List Endpoint)) := []
  /-- Takes the place of the transport over HTTP. -/
  transport : Option (Transport ε) := none
  interceptors : List Interceptor := []
  listeners : List Listener := []
  /-- Takes the place of the handler of 4xx and 5xx statuses. -/
  statusHandler : Option (StatusHandler (Outside ε)) := none
  /-- Takes the place of the policy of the configuration. -/
  retryPolicy : Option RetryPolicy := none
  resolver : Option (Resolver ε) := none
  /-- Takes the place of the breakers of the configuration. -/
  registry : Option BreakerRegistry := none
  /-- The fallback of a method on a target. -/
  fallbacks : Target → String → Option (Fallback ε) := fun _ _ => none

namespace Builder

variable {ε : Type}

/-! ## Steps -/

/-- The log line of a client that allows plain HTTP. -/
def insecureLine : TraceLine :=
  ⟨.warn, "allow_insecure_http() called - HTTP traffic will NOT be encrypted", []⟩

/-- Allows plain HTTP, with a warning. -/
def allowInsecureHttp (b : Builder ε) : Stage ε (Builder ε) :=
  (Stage.log insecureLine).andThen fun _ =>
    .done { b with
      config := { b.config with transport := { b.config.transport with allowInsecureHttp := true } } }

/-! ## Checks -/

/-- The failure of two methods under one key. -/
def declaredTwice (key : String) : Error :=
  .configuration ("method '" ++ key ++ "' is declared twice")

/-- Checks methods one after the other: the declared result, then the key against those before. -/
def checkEndpoints (seen : List String) : List Endpoint → Except Error Unit
  | [] => .ok ()
  | e :: rest =>
    match e.validate with
    | .error error => .error error
    | .ok () =>
      if e.key ∈ seen then .error (declaredTwice e.key)
      else checkEndpoints (e.key :: seen) rest

/-- All methods: those declared on the builder, then those of the contracts in order. -/
def endpoints (b : Builder ε) : Except Error (List Endpoint) :=
  match b.contracts.mapM id with
  | .error e => .error e
  | .ok contracts => .ok (b.methods ++ contracts.flatten)

/-- A service needs a resolver. -/
def checkTarget (b : Builder ε) : Except Error Unit :=
  if b.target.isLogical && b.resolver.isNone then
    .error (.configuration ("target '" ++ b.target.name ++
      "' is a logical service but no server resolver is configured"))
  else .ok ()

/-- The methods when they and the target have passed their checks. -/
def checked (b : Builder ε) : Except Error (List Endpoint) :=
  match b.endpoints with
  | .error e => .error e
  | .ok endpoints =>
    match checkEndpoints [] endpoints with
    | .error e => .error e
    | .ok () =>
      match b.checkTarget with
      | .error e => .error e
      | .ok () => .ok endpoints

/-! ## Pipelines -/

/-- The listeners, after the one that writes the log. -/
def allListeners (b : Builder ε) : List Listener :=
  if b.config.logLevel = .none then b.listeners
  else .logger b.config.logLevel :: b.listeners

/-- What the methods share; the rule for the `User-Agent` comes after all other interceptors. -/
def exchange (b : Builder ε) (around : Surroundings ε) (userAgent : HeaderRule) : Exchange ε where
  transport := b.transport.getD (HttpTransport.transport b.config.transport around.network)
  interceptors := b.interceptors ++ [userAgent.toInterceptor]
  listeners := b.allListeners
  statusHandler := b.statusHandler.getD (.default around.wallClock)
  decode404 := b.config.decode404
  maxBodySize := b.config.maxBodySize

/-- The retry policy, if failures are retried at all. -/
def policy? (b : Builder ε) (around : Surroundings ε) : Option RetryPolicy :=
  b.retryPolicy.or (b.config.retry.map fun retry => retry.policy around.draw)

/-- The breakers, if there are any: the given ones, or new ones of the configuration. -/
def registry? (b : Builder ε) : Option BreakerRegistry :=
  b.registry.or (b.config.breaker.map .empty)

/-- The key of a method's breaker. -/
def breakerKey (b : Builder ε) (method : String) : String :=
  let config := b.config.breaker.getD .default
  Breaker.key method config.uniquifier (if config.keyByTarget then some b.target.name else none)

/-- The service behind the breaker of a method, which is created here. -/
def guarded (b : Builder ε) (config : BreakerConfig) (method : String) (inner : Service ε) :
    Stage ε (Service ε) :=
  let key := b.breakerKey method
  (Stage.note [.askedForBreaker key]).andThen fun _ =>
    (Fiber.modifyGet fun t w =>
        ((), { w with breakers := (w.breakers.forKey key t).2 })).andThen fun _ =>
      (Stage.note [.askedForFallback method]).andThen fun _ =>
        .done (Pipeline.guarding key config.executionTimeout (b.fallbacks b.target method) inner)

/-- The service that balances, for a service as the target. -/
def balanced (b : Builder ε) (inner : Service ε) : Service ε :=
  if b.target.isLogical then
    Pipeline.balancing (b.config.balancer.getD .noFailover) b.resolver inner
  else inner

/-- The service that retries, if there is a policy. -/
def retried (b : Builder ε) (around : Surroundings ε) (inner : Service ε) : Service ε :=
  match b.policy? around with
  | some policy => Pipeline.retrying policy b.allListeners inner
  | none => inner

/-- The log line of a method whose pipeline is complete. -/
def builtLine (b : Builder ε) (method : String) : TraceLine :=
  ⟨.debug, "Method pipeline built", [("method", method), ("target", b.target.text)]⟩

/-- A method with its pipeline. -/
def method (b : Builder ε) (around : Surroundings ε) (exchange : Exchange ε)
    (endpoint : Endpoint) : Stage ε (Method ε) :=
  let attempt := Pipeline.executing exchange
  let guard := match b.registry? with
    | some registry => b.guarded registry.config endpoint.key attempt
    | none => .done attempt
  guard.andThen fun inner =>
    (Stage.log (b.builtLine endpoint.key)).andThen fun _ =>
      .done {
        endpoint
        target := b.target
        service := b.retried around (b.balanced inner)
        listeners := b.allListeners
        maxBodySize := b.config.maxBodySize }

/-- The methods with their pipelines, in order. -/
def assemble (b : Builder ε) (around : Surroundings ε) (exchange : Exchange ε) :
    List Endpoint → Stage ε (List (Method ε))
  | [] => .done []
  | endpoint :: rest =>
    (b.method around exchange endpoint).andThen fun m =>
      (b.assemble around exchange rest).andThen fun ms => .done (m :: ms)

/-! ## Building -/

/-- The log lines of setting up the transport. -/
def transportLines (b : Builder ε) : List TraceLine :=
  if b.transport.isSome then [] else HttpTransport.startLines b.config.transport

/-- Brings the breakers of a client into the world. -/
def installRegistry (b : Builder ε) : Stage ε Unit :=
  .modify fun w =>
    match b.registry? with
    | some breakers => { w with breakers }
    | none => w

/-- Builds the client; the first check that fails decides on the failure. -/
def build (b : Builder ε) (around : Surroundings ε) : Stage ε (Except Error (Client ε)) :=
  match b.checked with
  | .error e => .done (.error e)
  | .ok endpoints =>
    (Stage.note (b.transportLines.map .logged)).andThen fun _ =>
      match HeaderRule.userAgent b.config.userAgent with
      | .error e => .done (.error e)
      | .ok rule =>
        b.installRegistry.andThen fun _ =>
          (b.assemble around (b.exchange around rule) endpoints).andThen fun methods =>
            .done (.ok ⟨b.target, methods⟩)

end Builder

end ResilientClient
