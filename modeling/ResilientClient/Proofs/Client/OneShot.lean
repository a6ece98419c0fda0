/-
One-shot bodies. However many invocations, retries and failovers use copies of a one-shot body, its content is
handed over once at most: every later opening is refused with a failure that names the method. An execution that is
refused the body ends its invocation with this failure, at once and as it is, and a request whose scheme is refused
leaves its body unopened (`one_shot_once`).
-/
import ResilientClient.Proofs.Client.SameRequest
import ResilientClient.Proofs.Pipeline.Refusal

open ResilientClient.Fiber ResilientClient.Pipeline

namespace ResilientClient

variable {δ α : Type}

/-! ## Clients on a ledger -/

/-- The policies that a library offers: a budget, and the restriction of a policy to some failures. -/
inductive RetryPolicy.Stock : RetryPolicy → Prop
  | bounded (draw : Nat → Binary64) (maxRetries : Nat) (backoff : Backoff) :
      Stock (.bounded draw maxRetries backoff)
  | only (retryable : Error → Bool) {inner : RetryPolicy} : Stock inner → Stock (.only retryable inner)

/-- A request that cannot be built is not tried again. -/
theorem RetryPolicy.Stock.notRetryable {policy : RetryPolicy} (h : Stock policy) {e : Error}
    (he : e.isConstruction = true) (attempt : Nat) : policy e attempt = .notRetryable := by
  induction h with
  | bounded => simp [RetryPolicy.bounded, he]
  | only retryable _ ih =>
    unfold RetryPolicy.only
    split
    · exact ih
    · rfl

/-- All collaborators open bodies on the ledger only, the transport opens that of its request once in each execution,
and a retry policy of the client's own is one of the library. -/
structure Builder.OnLedger (b : Builder (Ledger δ)) : Prop where
  transport : ∃ executor : Executor (Ledger δ), executor.Aside ∧
    b.transport = some (executor.transport Ledger.openWire)
  statusHandler : ∀ handler, b.statusHandler = some handler → ∀ method response,
    Obeys Ledger.Aside (handler.decode method response)
  resolver : ∀ look, b.resolver = some look → ∀ service, Obeys Ledger.Aside (look service)
  fallbacks : ∀ target method f, b.fallbacks target method = some f → ∀ method args cause,
    Obeys Ledger.Aside (f method args cause)
  retryPolicy : ∀ policy, b.retryPolicy = some policy → RetryPolicy.Stock policy

namespace Builder

variable {b : Builder (Ledger δ)} {around : Surroundings (Ledger δ)}

theorem OnLedger.stock (h : b.OnLedger) {policy : RetryPolicy} (hpolicy : b.policy? around = some policy) :
    RetryPolicy.Stock policy := by
  unfold policy? at hpolicy
  cases hown : b.retryPolicy with
  | some own =>
    rw [hown] at hpolicy
    cases hpolicy
    exact h.retryPolicy _ hown
  | none =>
    rw [hown] at hpolicy
    obtain ⟨config, -, rfl⟩ := Option.map_eq_some_iff.1 hpolicy
    exact .only _ (.bounded _ _ _)

/-- The whole pipeline of a method abides by the rule for refused bodies. -/
theorem OnLedger.serves (h : b.OnLedger) (rule : HeaderRule) (endpoint : Endpoint) (args : List Argument) :
    Serves (Opening.IsFor (b.exchange around rule).interceptors endpoint args) endpoint args
      (b.complete around (b.exchange around rule) endpoint).service := by
  obtain ⟨executor, hexecutor, htransport⟩ := h.transport
  have hhandler : ∀ method response,
      Obeys Ledger.Aside ((b.exchange around rule).statusHandler.decode method response) := by
    intro method response
    unfold exchange
    cases hown : b.statusHandler with
    | none => exact obeys_decodeStatus (fun o => .inl (Ledger.keeps_refl o)) _ _ _ _
    | some handler => exact h.statusHandler handler hown method response
  have hattempt : Serves (Opening.IsFor (b.exchange around rule).interceptors endpoint args) endpoint args
      (executing (b.exchange around rule)) :=
    serves_executing (by simp [exchange, htransport]) hexecutor hhandler
  have hbacking : Serves (Opening.IsFor (b.exchange around rule).interceptors endpoint args) endpoint args
      (b.backing (b.exchange around rule) endpoint.key) := by
    unfold backing
    split
    · exact serves_guarding (h.fallbacks _ _) hattempt
    · exact hattempt
  have hbalanced : Serves (Opening.IsFor (b.exchange around rule).interceptors endpoint args) endpoint args
      (b.balanced (b.backing (b.exchange around rule) endpoint.key)) := by
    unfold balanced
    split
    · exact serves_balancing h.resolver hbacking _
    · exact hbacking
  unfold complete retried
  dsimp only
  split
  · rename_i policy hpolicy
    intro call s hendpoint hargs
    exact abides_attemptsFrom (fun _ attempt => (h.stock hpolicy).notRetryable rfl attempt) _
      (fun s => hbalanced call s hendpoint hargs) _ _ _ s
  · exact hbalanced

end Builder

/-! ## Invocations -/

/-- After a refusal the listeners are told the failure, and the invocation returns it. -/
theorem Method.Invokes.abides {m : Method (Ledger δ)} {args : List Argument} {x : Stage (Ledger δ) α}
    {failed : Error → α} (h : m.Invokes args x failed) {kind : Opening → Prop}
    (hserves : Serves kind m.endpoint args m.service) (s : World (Ledger δ)) :
    Abides (refusals kind) (Passes failed) x none s := by
  obtain ⟨rest, rfl, hremarks, herror⟩ := h.dispatchesOnce
  refine Obeys.then_abides obeys_now (fun started s => ?_) s
  refine abides_andThen (hserves _ s rfl rfl) fun refused r s hr => ?_
  cases refused with
  | none =>
    have hapart : Obeys Apart (rest started r) := (hremarks started r).weaken fun s s' hs => by
      obtain ⟨os, -, rfl⟩ := hs
      exact .inl (Ledger.keeps_refl s.outside)
    exact hapart.passes s
  | some method =>
    obtain rfl := hr method rfl
    have htold : Abides (refusals kind) (fun refused _ => refused = some method)
        (m.tellFailure started (.bodyConsumed method)) (some method) s := fun _ => abides_closing fun _ => .told
    rw [herror]
    refine abides_andThen htold fun refused _ s hrefused => ?_
    obtain rfl : refused = some method := hrefused
    rintro _ ⟨⟩
    rfl

theorem Builder.OnLedger.serves_of_build {b : Builder (Ledger δ)} {around : Surroundings (Ledger δ)}
    {client : Client (Ledger δ)} {t₀ t₁ : Instant} {s₀ s₁ : World (Ledger δ)} {ws₀ : List (Write (World (Ledger δ)))}
    (h : b.OnLedger) (hbuild : Ends (b.build around) t₀ s₀ ws₀ (.ok client) t₁ s₁) {m : Method (Ledger δ)}
    (hm : m ∈ client.methods) (args : List Argument) : ∃ rule : HeaderRule,
      Serves (Opening.IsFor (b.interceptors ++ [rule.toInterceptor]) m.endpoint args) m.endpoint args m.service := by
  obtain ⟨endpoints, rule, -, -, hmethods⟩ := Builder.methods_of_build hbuild
  rw [hmethods] at hm
  obtain ⟨endpoint, -, rfl⟩ := List.mem_map.1 hm
  exact ⟨rule, h.serves rule endpoint args⟩

/-- With header rules as interceptors, an attempt opens the body of its arguments. -/
theorem Opening.IsFor.of_rules {rules : List HeaderRule} {endpoint : Endpoint} {args : List Argument}
    {opening : Opening} (h : opening.IsFor (rules.map HeaderRule.toInterceptor) endpoint args) :
    opening.body = endpoint.requestBody args ∧ opening.method = endpoint.key := by
  obtain ⟨-, call, request, rfl, rfl, hrequest, hbody, hmethod⟩ := h
  obtain ⟨base, uri, fields, -, -, -, rfl⟩ := prepare_rules hrequest
  exact ⟨hbody, hmethod⟩

/-! ## Whatever shares the bodies -/

/-- What may run where bodies are shared: invocations of any clients on the ledger, openings by the way, waits, and
sequences of these, each of which may be cut off. -/
inductive Ledger.Uses : {α : Type} → Stage (Ledger δ) α → Prop
  | invocation {b : Builder (Ledger δ)} {around : Surroundings (Ledger δ)} {client : Client (Ledger δ)}
      {t₀ t₁ : Instant} {s₀ s₁ : World (Ledger δ)} {ws₀ : List (Write (World (Ledger δ)))} {m : Method (Ledger δ)}
      {args : List Argument} {α : Type} {x : Stage (Ledger δ) α} {failed : Error → α} :
      b.OnLedger → Ends (b.build around) t₀ s₀ ws₀ (.ok client) t₁ s₁ → m ∈ client.methods →
      m.Invokes args x failed → Uses x
  | opening (body : RequestBody) (method : String) : Uses (Stage.outside (Ledger.openBody body method))
  | sleep (d : Duration) : Uses (Fiber.sleep d)
  | done {α : Type} (a : α) : Uses (.done a : Stage (Ledger δ) α)
  | andThen {α β : Type} {x : Stage (Ledger δ) α} {f : α → Stage (Ledger δ) β} :
      Uses x → (∀ a, Uses (f a)) → Uses (x.andThen f)
  | within {α : Type} {x : Stage (Ledger δ) α} (limit : Nat) : Uses x → Uses (x.within limit)

/-- Bodies are opened on record only. -/
def Recorded (s s' : World (Ledger δ)) : Prop := Ledger.OnRecord s.outside s'.outside

theorem Ledger.Uses.obeys {x : Stage (Ledger δ) α} (h : Ledger.Uses x) : Obeys Recorded x := by
  induction h with
  | invocation h hbuild hm hinvokes =>
    obtain ⟨rule, hserves⟩ := h.serves_of_build hbuild hm _
    exact obeys_of_abides (hinvokes.abides hserves) fun _ _ _ _ hstep => hstep.onRecord
  | opening body method =>
    exact obeys_zoom (fun _ _ => rfl) (Ledger.obeys_openBody body method) fun _ _ haside => haside.onRecord
  | sleep d => exact obeys_sleep (fun s => .inl (Ledger.keeps_refl s.outside)) d
  | done a => exact obeys_done a
  | andThen _ _ ihx ihf => exact obeys_andThen ihx ihf
  | within limit _ ih => exact obeys_within ih limit

/-! ## One opening -/

/-- Whatever shares one-shot bodies and in whatever order of turns: the first opening of such a body yields its
content, which is so handed over once at most, and every later one is refused with a failure that names the method.
An execution of an invocation opens the body of the invocation, and if that is a one-shot body that has been opened
before, the invocation ends there: it returns this failure as it is, at the same instant, no breaker counts it and
no collaborator is asked again. The transport over HTTP opens bodies in this way, and it refuses a scheme without
doing anything. -/
theorem one_shot_once :
    (∀ (β : Type) (tasks : List (Task (World (Ledger δ)) β)), (∀ task ∈ tasks, Ledger.Uses task.rest) →
      ∀ t s turns,
        let last := ((Crowd.start t s tasks).run turns).state
        let record := gained s.outside.own.openings last.outside.own.openings
        OpensOnce s.outside.opened record ∧ ∀ number, record.countP (Opening.yields number) ≤ 1) ∧
    (∀ (b : Builder (Ledger δ)) around client t₀ s₀ ws₀ t₁ s₁, b.OnLedger →
      Ends (b.build around) t₀ s₀ ws₀ (.ok client) t₁ s₁ → ∀ m ∈ client.methods, ∀ (args : List Argument)
      (α : Type) (x : Stage (Ledger δ) α) (failed : Error → α), m.Invokes args x failed →
      ∀ t s before w after a t' s' opening, Ends x t s (before ++ w :: after) a t' s' →
        Ledger.Opens opening w.before.outside w.after.outside → opening.executed = true →
        (∀ rules : List HeaderRule, b.interceptors = rules.map HeaderRule.toInterceptor →
          opening.body = m.endpoint.requestBody args ∧ opening.method = m.key) ∧
        ∀ number items, opening.body = .oneShot number items → number ∈ w.before.outside.opened →
          opening.result = .error (.bodyConsumed opening.method) ∧
            EndsRefused failed opening.method w after a t') ∧
    ∀ (options : TransportOptions) (network : Network (Ledger δ)),
      HttpTransport.transport options network =
        (HttpTransport.executor options network).transport HttpTransport.openWire ∧
      ∀ request : Request, ¬ HttpTransport.Takes options request.uri.scheme → ∃ reason,
        HttpTransport.transport options network request =
          .done (.error (.schemeRefused (request.uri.scheme.getD "") reason)) := by
  refine ⟨fun β tasks htasks t s turns => ?_, ?_, fun options network => ⟨HttpTransport.transport_eq _ _, ?_⟩⟩
  · have honce := opensOnce_of_reaches (Crowd.reaches_run (fun task hmem => (htasks task hmem).obeys) t s turns)
    exact ⟨honce, honce.countP_le⟩
  · intro b around client t₀ s₀ ws₀ t₁ s₁ h hbuild m hm args α x failed hinvokes t s before w after a t' s' opening
      hends hopens hexecuted
    obtain ⟨rule, hserves⟩ := h.serves_of_build hbuild hm args
    obtain ⟨hkind, hagain⟩ := endsRefused_of_again (hinvokes.abides hserves s) hends hopens hexecuted
    refine ⟨fun rules hrules => ?_, hagain⟩
    rw [hrules] at hkind
    have hall : opening.IsFor ((rules ++ [rule]).map HeaderRule.toInterceptor) m.endpoint args := by simpa using hkind
    exact hall.of_rules
  · intro request hrefused
    obtain ⟨reason, hcheck⟩ := HttpTransport.checkScheme_of_not_takes hrefused
    exact ⟨reason, by rw [HttpTransport.transport, hcheck]⟩

/-! ## A body that is needed twice -/

namespace OneShot

/-- The upload, and its content. -/
def content : BodyStream := [.chunk [120]]

def upload : RequestBody := .oneShot 0 content

def key : String := "Api#send()"

/-- A network that breaks off every exchange. -/
def broken : Network (Ledger Unit) := fun _ => .done (.error (.transport .exchange "reset"))

/-- A client with retries, failovers, a breaker, and a fallback that passes every failure on. -/
def posting : Builder (Ledger Unit) where
  target := .service "api"
  config := { ClientConfig.minimal with
    retry := some ⟨3, .none, false⟩, balancer := some ⟨1, 1⟩, breaker := some .default }
  methods := [⟨key, "POST", .compile "/", [], [], [], some 0, none, none, .single⟩]
  transport := some ((HttpTransport.executor .default broken).transport Ledger.openWire)
  resolver := some fun _ => .done (.ok ⟨"a", 443, true, []⟩)
  fallbacks := fun _ _ => some fun _ _ cause => .done (.error cause)

def around : Surroundings (Ledger Unit) := ⟨0, fun _ => .ofNat 0, broken⟩

/-- A world in which nothing has happened. -/
def untouched : World (Ledger Unit) := ⟨⟨[], ⟨(), []⟩⟩, .empty .default, []⟩

/-- The first opening, and one that is refused. -/
def handedOver : Opening := ⟨upload, key, true, .ok content⟩

def refused : Opening := ⟨upload, key, true, .error (.bodyConsumed key)⟩

theorem posting_onLedger : posting.OnLedger where
  transport := by
    refine ⟨_, ⟨fun _ => obeys_done _, fun _ _ => ?_⟩, rfl⟩
    exact obeys_andThen (obeys_within (obeys_done _) _) fun result => by cases result <;> exact obeys_done _
  statusHandler := nofun
  resolver := by
    rintro look ⟨⟩ service
    exact obeys_done _
  fallbacks := by
    rintro target method f ⟨⟩ _ _ _
    exact obeys_done _
  retryPolicy := nofun

/-- The openings, the counters of the breaker and the failures that the fallback was called for. -/
def facts (w : World (Ledger Unit)) : List Opening × Option (UInt32 × UInt32) × List Error :=
  (w.outside.own.openings, (w.breakers.get? (key ++ "@api")).map (fun b => (b.calls, b.failures)),
    w.timeline.filterMap fun
      | .recovered _ cause => some cause
      | _ => none)

/-- The bodies that are open, and the ledger. -/
def shelf (w : World (Ledger Unit)) : OpenedBodies × List Opening := (w.outside.opened, w.outside.own.openings)

/-- The write that adds the second opening to the ledger. -/
def isSecond (w : Write (World (Ledger Unit))) : Bool :=
  w.before.outside.own.openings.length == 1 && w.after.outside.own.openings.length == 2

/-- Two executions of a method, one after the other. -/
def twice (m : Method (Ledger Unit)) (t : Instant) (s : World (Ledger Unit)) : World (Ledger Unit) :=
  ((Crowd.start t s [⟨t, m.execute [.body upload]⟩, ⟨t, m.execute [.body upload]⟩]).run [⟨0, 0⟩, ⟨0, 1⟩]).state

/-- The first attempt hands the content over, and its exchange breaks off. The balancer tries again, and there the
invocation ends: the retries that are left are not made, the breaker has counted one failure, and the fallback was
called for one. -/
theorem one_shot_once_reset :
    ∃ client ws₀ t₁ s₁ m before w after t' s', Ends (posting.build around) 0 untouched ws₀ (.ok client) t₁ s₁ ∧
      m ∈ client.methods ∧
      Ends (m.execute [.body upload]) t₁ s₁ (before ++ w :: after) (.error (.bodyConsumed key)) t' s' ∧
      facts s' = ([refused, handedOver], some (1, 1), [.transport .exchange "reset"]) ∧
      Ledger.Opens refused w.before.outside w.after.outside ∧ 0 ∈ w.before.outside.opened ∧
      upload = m.endpoint.requestBody [.body upload] ∧
      EndsRefused .error key w after (.error (.bodyConsumed key) : Outcome) t' ∧
      gained s₁.outside.own.openings (twice m t₁ s₁).outside.own.openings = [handedOver, refused, refused] ∧
      OpensOnce s₁.outside.opened [handedOver, refused, refused] ∧
      ¬ HttpTransport.Takes .default (some "http") ∧ ∃ reason, HttpTransport.transport .default broken
        ⟨key, "POST", ⟨some "http", some "a", "/", none⟩, .empty, upload⟩ =
          .done (.error (.schemeRefused "http" reason)) := by
  have hrun : (posting.first around untouched).map (fun p =>
      let stop := (p.1.execute [.body upload]).run p.2.1 p.2.2
      (stop.1, facts stop.2.2)) = some ((.error (.bodyConsumed key) : Outcome),
        [refused, handedOver], some (1, 1), [.transport .exchange "reset"]) := by decide +kernel
  have hsecond : (posting.first around untouched).map (fun p =>
      (((p.1.execute [.body upload]).trail p.2.1 p.2.2).find? isSecond).map fun w => (shelf w.before, shelf w.after)) =
      some (some (([0], [handedOver]), ([0], [refused, handedOver]))) := by decide +kernel
  have htwice : (posting.first around untouched).map (fun p => (p.1.endpoint.requestBody [.body upload],
      gained p.2.2.outside.own.openings (twice p.1 p.2.1 p.2.2).outside.own.openings)) =
      some (upload, [handedOver, refused, refused]) := by decide +kernel
  obtain ⟨⟨m, t₁, s₁⟩, hfirst, hrun⟩ := Option.map_eq_some_iff.1 hrun
  rw [hfirst, Option.map_some, Option.some.injEq] at hsecond htwice
  obtain ⟨hresult, hfacts⟩ := Prod.mk.inj hrun
  obtain ⟨hbody, hgained⟩ := Prod.mk.inj htwice
  obtain ⟨w, hw, hshelves⟩ := Option.map_eq_some_iff.1 hsecond
  obtain ⟨hbefore, hafter⟩ := Prod.mk.inj hshelves
  obtain ⟨hopened, hwritten⟩ := Prod.mk.inj hbefore
  obtain ⟨hopened', hwritten'⟩ := Prod.mk.inj hafter
  obtain ⟨client, ws₀, hbuild, hm⟩ := Builder.ends_of_first hfirst
  have hends := ends_trail (m.execute [.body upload]) t₁ s₁
  obtain ⟨before, after, hsplit⟩ := List.append_of_mem (List.mem_of_find?_eq_some hw)
  rw [hsplit, hresult] at hends
  have hopens : Ledger.Opens refused w.before.outside w.after.outside :=
    ⟨by rw [hopened]; rfl, by rw [hopened, hopened']; rfl, by rw [hwritten, hwritten']⟩
  have hagain : 0 ∈ w.before.outside.opened := by rw [hopened]; decide
  obtain ⟨hshared, hinvocations, hhttp⟩ := @one_shot_once Unit
  have hpath := hinvocations posting around client _ _ _ _ _ posting_onLedger hbuild m hm _ _ _ _ .execute
    _ _ _ _ _ _ _ _ refused hends hopens rfl
  have htasks := hshared Outcome [⟨t₁, m.execute [.body upload]⟩, ⟨t₁, m.execute [.body upload]⟩]
    (fun task htask => by
      obtain rfl : task = ⟨t₁, m.execute [.body upload]⟩ := by simpa using htask
      exact .invocation posting_onLedger hbuild hm .execute) t₁ s₁ [⟨0, 0⟩, ⟨0, 1⟩]
  have hrefuses : ¬ HttpTransport.Takes .default (some "http") := by
    simp [HttpTransport.Takes, TransportOptions.default]
  exact ⟨client, ws₀, t₁, s₁, m, before, w, after, _, _, hbuild, hm, hends, hfacts, hopens, hagain, hbody.symm,
    (hpath.2 0 content rfl hagain).2, hgained, hgained ▸ htasks.1, hrefuses,
    (hhttp .default broken).2 ⟨key, "POST", ⟨some "http", some "a", "/", none⟩, .empty, upload⟩ hrefuses⟩

end OneShot

end ResilientClient
