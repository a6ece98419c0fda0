/-
Client errors. A response by which the server finds fault with the request ends an invocation for good, as
long as the preview of its body is unbroken (`client_errors_final`). A body that breaks while it is
previewed hides the status: the attempt ends with the failure of the body instead, and that counts as one of
the service (`ClientErrors.broken_preview_opens_circuit`).
-/
import ResilientClient.Proofs.Client.Build
import ResilientClient.Proofs.Pipeline.Blame

open ResilientClient.Fiber ResilientClient.Pipeline

namespace ResilientClient

variable {δ : Type}

/-! ## Clients on record -/

/-- The surroundings of a client whose transport is on record. -/
def Surroundings.onRecord (around : Surroundings δ) : Surroundings (Tapped δ) where
  wallClock := around.wallClock
  draw := around.draw
  network := fun wire => Tapped.sheltered (around.network wire)

/-- A builder with its transport on record, and with a handler of 4xx and 5xx statuses that keeps at most
`limit` bytes of an error body. -/
def Builder.onRecord (b : Builder δ) (around : Surroundings δ) (limit : Nat) : Builder (Tapped δ) where
  target := b.target
  config := b.config
  methods := b.methods
  contracts := b.contracts
  transport := some <| Tapped.transport <|
    b.transport.getD (HttpTransport.transport b.config.transport around.network)
  interceptors := b.interceptors
  listeners := b.listeners
  statusHandler := some (.ofPreviewLimit around.wallClock limit)
  retryPolicy := b.retryPolicy
  resolver := b.resolver.map Tapped.resolver
  registry := b.registry
  fallbacks := fun target method => (b.fallbacks target method).map Tapped.fallback

section Invocations

variable {limit : Nat} {t t' : Instant} {s s' : World (Tapped δ)} {ws : List (Write (World (Tapped δ)))}

/-- What the listeners are told of a failure is neither heard nor loud. -/
theorem execute_heeds {m : Method (Tapped δ)} (h : HeedsAll limit m.service) {args : List Argument}
    {r : Outcome} (hends : Ends (m.execute args) t s ws r t' s') : Heeds limit ws r := by
  obtain ⟨us, started, t₁, s₁, vs, rfl, hnow, hrest⟩ := (ends_andThen _ _).1 hends
  obtain ⟨rfl, -, -, -⟩ := ends_now.1 hnow
  obtain ⟨us', o, t₂, s₂, vs', rfl, hdispatch, htold⟩ := (ends_andThen _ _).1 hrest
  have hheeds := h _ _ _ _ _ _ _ hdispatch
  cases o with
  | ok response =>
    obtain ⟨rfl, -, -, -⟩ := ends_done.1 htold
    exact hheeds.append_of_unblamed not_blamed_ok atEach_nil
  | error e =>
    obtain ⟨us₁, _, t₃, s₃, vs₁, rfl, hfailure, hend⟩ := (ends_andThen _ _).1 htold
    obtain ⟨rfl, rfl, -, -⟩ := ends_done.1 hend
    obtain ⟨us₂, now, t₄, s₄, vs₂, rfl, hnow', htell⟩ := (ends_andThen _ _).1 hfailure
    obtain ⟨rfl, -, -, -⟩ := ends_now.1 hnow'
    obtain ⟨hdeaf, hhushed⟩ := quiet_tell htell
    simp only [List.nil_append, List.append_nil]
    exact hheeds.append (fun hblamed => ⟨hhushed, hblamed⟩) (atEach_of_deaf hdeaf)

end Invocations

/-- The policy of a configuration that does not retry client errors. -/
theorem policy_notRetryable {c : RetryConfig} (hc : c.retryClientErrors = false) {draw : Nat → Binary64}
    {e : Error} (he : e.isClientRequestError = true) (attempt : Nat) :
    c.policy draw e attempt = .notRetryable := by
  simp [RetryConfig.policy, RetryPolicy.only, RetryConfig.retries, hc, he]

/-- The whole pipeline of a method heeds its responses. -/
theorem complete_heeds (b : Builder δ) (around : Surroundings δ) (limit : Nat)
    (h404 : b.config.decode404 = false) (hpolicy : b.retryPolicy = none)
    (hretry : ∀ c, b.config.retry = some c → c.retryClientErrors = false)
    (htimeout : ∀ registry, b.registry? = some registry → registry.config.executionTimeout = none)
    (rule : HeaderRule) (endpoint : Endpoint) :
    let recorded := b.onRecord around limit
    HeedsAll (min limit previewLimit) (recorded.complete around.onRecord
      (recorded.exchange around.onRecord rule) endpoint).service := by
  intro recorded
  have hattempt : HeedsAll (min limit previewLimit)
      (executing (recorded.exchange around.onRecord rule)) :=
    fun call _ _ _ _ _ _ hends => (attempt_heeds rfl rfl h404 hends).1
  have hbacking : HeedsAll (min limit previewLimit)
      (recorded.backing (recorded.exchange around.onRecord rule) endpoint.key) := by
    unfold Builder.backing
    cases hregistry : recorded.registry? with
    | none => exact hattempt
    | some registry =>
      dsimp only
      rw [htimeout registry hregistry]
      exact guarding_heeds hattempt _ (b.fallbacks b.target endpoint.key)
  have hbalanced : HeedsAll (min limit previewLimit) (recorded.balanced
      (recorded.backing (recorded.exchange around.onRecord rule) endpoint.key)) := by
    unfold Builder.balanced
    split
    · exact balancing_heeds hbacking _ b.resolver
    · exact hbacking
  unfold Builder.complete Builder.retried
  dsimp only
  split
  · rename_i policy hp
    refine retrying_heeds hbalanced (fun e attempt he => ?_) _
    have hp' : b.config.retry.map (fun retry => retry.policy around.onRecord.draw) = some policy := by
      simpa [Builder.policy?, recorded, Builder.onRecord, hpolicy] using hp
    obtain ⟨c, hc, rfl⟩ := Option.map_eq_some_iff.1 hp'
    exact policy_notRetryable (hretry c hc) he attempt
  · exact hbalanced

/-- The client has a handler of 4xx and 5xx statuses and no empty answers for a 404, its configuration does
not retry client errors, and its breakers, if there are any, set no time limit. An attempt for which the
transport returns a response that blames the request ends in a failure of that class exactly if the preview
of the body is unbroken. And then nothing more is sent, no failure is reported to a breaker, no fallback is
called, and the invocation ends in such a failure too. -/
theorem client_errors_final (b : Builder δ) (around : Surroundings δ) (limit : Nat)
    (h404 : b.config.decode404 = false) (hpolicy : b.retryPolicy = none)
    (hretry : ∀ c, b.config.retry = some c → c.retryClientErrors = false)
    (htimeout : ∀ registry, b.registry? = some registry → registry.config.executionTimeout = none) :
    let recorded := b.onRecord around limit
    (∀ rule call t s ws r t' s',
      Ends (executing (recorded.exchange around.onRecord rule) call) t s ws r t' s' →
      AtEach (fun response _ => response.status.BlamesRequest →
        (Blamed r ↔ response.body.Unbroken (min limit previewLimit))) ws) ∧
    ∀ client t₀ s₀ ws₀ t₁ s₁, Ends (recorded.build around.onRecord) t₀ s₀ ws₀ (.ok client) t₁ s₁ →
      ∀ m ∈ client.methods, ∀ args t s ws r t' s', Ends (m.execute args) t s ws r t' s' →
        Heeds (min limit previewLimit) ws r := by
  intro recorded
  refine ⟨fun rule call t s ws r t' s' hends => (attempt_heeds rfl rfl h404 hends).2, ?_⟩
  intro client t₀ s₀ ws₀ t₁ s₁ hbuild m hm args t s ws r t' s' hends
  obtain ⟨endpoints, rule, -, -, hmethods⟩ := Builder.methods_of_build hbuild
  rw [hmethods] at hm
  obtain ⟨endpoint, -, rfl⟩ := List.mem_map.1 hm
  exact execute_heeds
    (complete_heeds b around limit h404 hpolicy hretry htimeout rule endpoint) hends

/-! ## One response -/

namespace ClientErrors

/-- The configuration of a breaker that opens on the first failure. -/
def frail : BreakerConfig := { BreakerConfig.default with failureThreshold := 1, minimumCalls := 1 }

/-- A client with a fallback and given breakers, whose transport answers every request in the same way. -/
def answering (response : Response) : Builder Unit where
  target := .url "https://localhost"
  config := { ClientConfig.minimal with breaker := some frail }
  registry := some (.empty frail)
  methods := [⟨"Api#get()", "GET", .compile "/", [], [], [], none, none, none, .single⟩]
  transport := some fun _ => .done (.ok response)
  fallbacks := fun _ _ => some fun _ _ _ => .done (.ok (.empty .ok))

/-- Surroundings without a network. -/
def nowhere : Surroundings Unit :=
  ⟨0, fun _ => .ofNat 0, fun _ => .done (.error (.transport .connect "no network"))⟩

/-- The state of a new world. -/
def untouched : World (Tapped Unit) := ⟨⟨[], (), []⟩, .empty .default, []⟩

def missing : Response := ⟨.notFound, .empty, [.chunk [120]], none⟩

def broken : Response := ⟨.notFound, .empty, [.chunk [120], .failure (.body "reset")], none⟩

/-- The client that is answered with a response, built in a new world. -/
def built (response : Response) : Except Error (Client (Tapped Unit)) × Instant × World (Tapped Unit) :=
  (((answering response).onRecord nowhere previewLimit).build nowhere.onRecord).run 0 untouched

/-- A call of its method, with the time and the state at the end. -/
def called (response : Response) : Option (Outcome × Instant × World (Tapped Unit)) :=
  match built response with
  | (.ok client, t, s) => client.methods.head?.map fun m => (m.execute []).run t s
  | (.error _, _, _) => none

/-- What a 404 with an intact body becomes. -/
def notFound : Outcome := .error (.status "Api#get()" .notFound "x" none none)

/-- A 404 with an intact body is heeded. -/
theorem client_errors_final_missing :
    ∃ client m ws t s', (built missing).1 = .ok client ∧ m ∈ client.methods ∧
      Ends (m.execute []) (built missing).2.1 (built missing).2.2 ws notFound t s' ∧
      Heeds previewLimit ws notFound := by
  have hcalled : (called missing).map Prod.fst = some notFound := by decide +kernel
  obtain ⟨wsBuild, hbuild⟩ :=
    ends_run (((answering missing).onRecord nowhere previewLimit).build nowhere.onRecord) 0 untouched
  unfold called at hcalled
  change Ends _ 0 untouched wsBuild (built missing).1 (built missing).2.1 (built missing).2.2 at hbuild
  generalize built missing = outcome at hbuild hcalled ⊢
  rcases outcome with ⟨_ | client, t, s⟩
  · cases hcalled
  · obtain ⟨p, hp, hresult⟩ := Option.map_eq_some_iff.1 hcalled
    obtain ⟨m, hm, rfl⟩ := Option.map_eq_some_iff.1 hp
    obtain ⟨ws, hends⟩ := ends_run (m.execute []) t s
    rw [hresult] at hends
    have hmem := List.mem_of_mem_head? hm
    refine ⟨client, m, ws, _, _, rfl, hmem, hends, ?_⟩
    exact (client_errors_final (answering missing) nowhere previewLimit rfl rfl
      (fun c hc => by cases hc) (fun registry hr => by cases hr; rfl)).2
      client _ _ _ _ _ hbuild m hmem _ _ _ _ _ _ _ hends

/-- The body of a 404 breaks while it is previewed: the attempt counts as a failure of the service, the
circuit opens, and the fallback answers. -/
theorem broken_preview_opens_circuit :
    broken.status.BlamesRequest ∧ (called broken).map Prod.fst = some (.ok (.empty .ok)) ∧
      ((called broken).bind fun p => p.2.2.breakers.get? "Api#get()@https://localhost").map
        Breaker.state = some .opened := by
  decide +kernel

end ClientErrors

end ResilientClient
