/-
Instrumentation. What the listeners of a client are told about an invocation is all that it does: every execution of
the transport with its request and its response, every failure that is retried, and at the end the element or the
failure that is returned (`instrumentation`). Each event reaches all listeners, in their order.
-/
import ResilientClient.Proofs.Client.Build
import ResilientClient.Proofs.Client.Courses
import ResilientClient.Proofs.Pipeline.Narration

open ResilientClient.Fiber ResilientClient.Pipeline

namespace ResilientClient

variable {ε : Type}

namespace Builder

variable {b : Builder ε} {around : Surroundings ε} {rule : HeaderRule}

/-! ## Calls -/

/-- What the retries of a method use: its attempts, balanced if the target is a service. -/
def round (b : Builder ε) (around : Surroundings ε) (rule : HeaderRule) (m : Method ε) (args : List Argument) :
    Stage ε Outcome :=
  b.balanced (b.backing (b.exchange around rule) m.key) (.start m.endpoint args b.target)

theorem exchanges_of_backing (exchange : Exchange ε) (method : String) (call : Call) :
    NarratesExchanges exchange.listeners exchange.transport (b.backing exchange method call) := by
  unfold backing
  cases b.registry? with
  | some registry => exact exchanges_of_guarding exchange _ _ _ call
  | none => exact exchanges_of_executing exchange call

theorem exchanges_of_balanced (exchange : Exchange ε) (method : String) (call : Call) :
    NarratesExchanges exchange.listeners exchange.transport (b.balanced (b.backing exchange method) call) := by
  unfold balanced
  split
  · exact exchanges_of_balancing (exchanges_of_backing exchange method) _ _ call
  · exact exchanges_of_backing exchange method call

/-- A call of a method is made of iterations, whatever the retry policy is. -/
theorem loops_of_dispatch {client : Client ε} {t₀ t₁ : Instant} {s₀ s₁ : World ε} {ws₀ : List (Write (World ε))}
    (hbuild : Ends (b.build around) t₀ s₀ ws₀ (.ok client) t₁ s₁) :
    ∃ rule, HeaderRule.userAgent b.config.userAgent = .ok rule ∧ ∀ m ∈ client.methods,
      m.listeners = b.allListeners ∧ ∀ args t s ws r t' s', Ends (m.dispatch args) t s ws r t' s' →
        ∃ episodes, Loops b.allListeners (b.exchange around rule).transport (b.round around rule m args) m.key 1 ws
          episodes r := by
  obtain ⟨endpoints, rule, -, hrule, hmethods⟩ := methods_of_build hbuild
  refine ⟨rule, hrule, fun m hm => ?_⟩
  rw [hmethods] at hm
  obtain ⟨endpoint, -, rfl⟩ := List.mem_map.1 hm
  refine ⟨rfl, fun args t s ws r t' s' hends => ?_⟩
  have hround : NarratesExchanges b.allListeners (b.exchange around rule).transport
      (b.round around rule (b.complete around (b.exchange around rule) endpoint) args) :=
    exchanges_of_balanced (b.exchange around rule) _ _
  change Ends (b.retried around (b.balanced (b.backing (b.exchange around rule) endpoint.key))
    (.start endpoint args b.target)) t s ws r t' s' at hends
  unfold retried at hends
  cases hpolicy : b.policy? around with
  | some policy =>
    rw [hpolicy] at hends
    exact loops_of_attemptsFrom hround policy _ counterMax 1 rfl hends
  | none =>
    rw [hpolicy] at hends
    exact Loops.once hround hends _ _

end Builder

/-! ## The end of an invocation -/

namespace Method

/-- What the listeners are told at the end of an invocation for a single element. -/
def closing (method : String) (elapsed : Nat) : Except Error (Option Bytes) → List Episode
  | .error e => [.told (.errorReceived method e elapsed)]
  | .ok (some bytes) => [.told (.bodyElement method bytes)]
  | .ok none => []

section Closing

variable {m : Method ε} {t t' : Instant} {s s' : World ε} {ws : List (Write (World ε))}

/-- A failure is told last. -/
theorem narrates_of_tellFailure {started : Instant} {e : Error} {u : Unit}
    (h : Ends (m.tellFailure started e) t s ws u t' s') :
    t' = t ∧ Narrates m.listeners ws [.told (.errorReceived m.key e (t - started))] := by
  obtain ⟨us, now, t₁, s₁, vs, rfl, hnow, htell⟩ := (ends_andThen _ _).1 h
  obtain ⟨rfl, rfl, rfl, rfl⟩ := ends_now.1 hnow
  exact ⟨(ends_note htell).1, narrates_of_note (.told _) htell⟩

/-- An element is told before it is returned. -/
theorem narrates_of_element {response : Response} {r : Except Error (Option Bytes)}
    (h : Ends (m.element response) t s ws r t' s') :
    Narrates m.listeners ws ((r.toOption.bind id).elim [] fun bytes => [.told (.bodyElement m.key bytes)]) := by
  obtain ⟨us, result, t₁, s₁, vs, rfl, hread, hrest⟩ := (ends_andThen _ _).1 h
  have hasides : Narrates m.listeners us [] := Asides.narrates (BodyStream.obeys_readAll asides_refl _ _) hread
  cases result with
  | error e =>
    obtain ⟨rfl, rfl, -, -⟩ := ends_done.1 hrest
    rw [List.append_nil]
    exact hasides
  | ok bytes =>
    dsimp only at hrest
    split at hrest
    · obtain ⟨rfl, rfl, -, -⟩ := ends_done.1 hrest
      rw [List.append_nil]
      exact hasides
    · obtain ⟨us', _, t₂, s₂, vs', rfl, htell, hend⟩ := (ends_andThen _ _).1 hrest
      obtain ⟨rfl, rfl, -, -⟩ := ends_done.1 hend
      rw [List.append_nil]
      exact hasides.append (narrates_of_note (.told _) htell)

/-- After the call of a method that is invoked for a single element the listeners are told how it ended. -/
theorem narrates_of_invokeSingle {args : List Argument} {r : Except Error (Option Bytes)}
    (h : Ends (m.invokeSingle args) t s ws r t' s') :
    ∃ us o t₁ s₁ vs, ws = us ++ vs ∧ Ends (m.dispatch args) t s us o t₁ s₁ ∧ (∀ e, o = .error e → r = .error e) ∧
      Narrates m.listeners vs (closing m.key (t' - t) r) := by
  obtain ⟨_, started, _, _, ws', hws, hnow, h₁⟩ := (ends_andThen _ _).1 h
  obtain ⟨rfl, rfl, rfl, rfl⟩ := ends_now.1 hnow
  obtain ⟨us', result, t₂, s₂, vs', rfl, hwork, h₂⟩ := (ends_andThen _ _).1 h₁
  obtain ⟨us, o, t₁, s₁, vs, rfl, hdispatch, h₃⟩ := (ends_andThen _ _).1 hwork
  -- an element is told before the work ends, a failure only after it
  have htold : Narrates m.listeners vs
      ((result.toOption.bind id).elim [] fun bytes => [.told (.bodyElement m.key bytes)]) ∧
      ∀ e, o = .error e → result = .error e := by
    cases o with
    | error e =>
      obtain ⟨rfl, rfl, -, -⟩ := ends_done.1 h₃
      exact ⟨narrates_nil, fun e' he => by cases he; rfl⟩
    | ok response => exact ⟨narrates_of_element h₃, fun e he => by cases he⟩
  refine ⟨us, o, t₁, s₁, vs ++ vs', by rw [hws, List.nil_append, List.append_assoc], hdispatch, ?_⟩
  cases result with
  | ok element =>
    obtain ⟨rfl, rfl, rfl, -⟩ := ends_done.1 h₂
    rw [List.append_nil]
    refine ⟨fun e he => htold.2 e he, ?_⟩
    cases element with
    | none => exact htold.1
    | some bytes => exact htold.1
  | error e =>
    obtain ⟨us₁, _, t₃, s₃, vs₁, rfl, hfailure, hend⟩ := (ends_andThen _ _).1 h₂
    obtain ⟨rfl, rfl, rfl, -⟩ := ends_done.1 hend
    obtain ⟨rfl, hclosed⟩ := narrates_of_tellFailure hfailure
    rw [List.append_nil]
    exact ⟨htold.2, htold.1.append hclosed⟩

end Closing

end Method

/-- Of every invocation for a single element the listeners are told everything, and nothing else. Its path is that of
the iterations of its call and then the end. In each iteration, of each execution of the transport they are told the
request right before it and the response, if there is one, right after it; between two iterations they are told once
of the failure that is retried, with the number of the iteration; and last of all, and only then, they are told of the
failure or the element that is returned. All listeners keep the same events in the same order, and each event reaches
them in the order in which they were registered. -/
theorem instrumentation (b : Builder ε) (around : Surroundings ε) {client : Client ε} {t₀ t₁ : Instant}
    {s₀ s₁ : World ε} {ws₀ : List (Write (World ε))}
    (hbuild : Ends (b.build around) t₀ s₀ ws₀ (.ok client) t₁ s₁) :
    ∃ rule, HeaderRule.userAgent b.config.userAgent = .ok rule ∧ ∀ m ∈ client.methods, ∀ args t s ws r t' s',
      Ends (m.invokeSingle args) t s ws r t' s' →
        ∃ us vs o episodes, ws = us ++ vs ∧ (∀ e, o = .error e → r = .error e) ∧
          Loops b.allListeners (b.exchange around rule).transport (b.round around rule m args) m.key 1 us episodes o ∧
          itemEvents episodes = [] ∧ Narrates b.allListeners us episodes ∧
          Narrates b.allListeners vs (Method.closing m.key (t' - t) r) ∧
          (gainedIn World.past ws).filterMap Occurrence.heard? =
            ((episodes ++ Method.closing m.key (t' - t) r).filterMap Episode.event?).flatMap
              (hearing b.allListeners) := by
  obtain ⟨rule, hrule, hmethods⟩ := Builder.loops_of_dispatch hbuild
  refine ⟨rule, hrule, fun m hm args t s ws r t' s' hends => ?_⟩
  obtain ⟨hlisteners, hloops⟩ := hmethods m hm
  obtain ⟨us, o, t₂, s₂, vs, rfl, hdispatch, herror, hclosing⟩ := Method.narrates_of_invokeSingle hends
  obtain ⟨episodes, hepisodes⟩ := hloops _ _ _ _ _ _ _ hdispatch
  rw [hlisteners] at hclosing
  exact ⟨us, vs, o, episodes, rfl, herror, hepisodes, hepisodes.itemEvents, hepisodes.narrates, hclosing,
    (hepisodes.narrates.append hclosing).heard⟩

/-! ## A call that is retried -/

namespace Builder

/-- A client with two listeners and one retry, whose transport fails once and then responds. -/
def recovering : Builder Nat where
  target := .url "https://localhost"
  config := { ClientConfig.minimal with retry := some ⟨1, .none, false⟩ }
  methods := [getEndpoint]
  transport := some fun _ => .modifyGet fun _ o =>
    (if o.own = 0 then .error (.timeout (.ofSeconds 1)) else .ok ⟨.ok, .empty, [.chunk [120]], none⟩,
      { o with own := o.own + 1 })
  listeners := [.recorder "first", .recorder "second"]

/-- Surroundings without a network. -/
def offline : Surroundings Nat :=
  ⟨0, fun _ => .ofNat 0, fun _ => .done (.error (.transport .connect "no network"))⟩

/-- A world in which nothing has happened. -/
def unused : World Nat := ⟨⟨[], 0⟩, .empty .default, []⟩

end Builder

/-- Two requests, one retry, one response and one element: both listeners keep five events, in turns. -/
theorem instrumentation_of_recovering :
    ∃ client ws₀ t₁ s₁ m ws t' s', Ends (Builder.recovering.build Builder.offline) 0 Builder.unused ws₀ (.ok client)
      t₁ s₁ ∧ m ∈ client.methods ∧ Ends (m.invokeSingle []) t₁ s₁ ws (.ok (some [120])) t' s' ∧
      ((gainedIn World.past ws).filterMap Occurrence.heard?).map Prod.fst =
        ["first", "second", "first", "second", "first", "second", "first", "second", "first", "second"] ∧
      ∃ rule us vs o episodes, ws = us ++ vs ∧
        Loops Builder.recovering.allListeners (Builder.recovering.exchange Builder.offline rule).transport
          (Builder.recovering.round Builder.offline rule m []) m.key 1 us episodes o ∧
        Narrates Builder.recovering.allListeners vs [.told (.bodyElement m.key [120])] := by
  have hrun : (Builder.recovering.first Builder.offline Builder.unused).map (fun p =>
      (((p.1.invokeSingle []).run p.2.1 p.2.2).1,
        ((gainedIn World.past ((p.1.invokeSingle []).trail p.2.1 p.2.2)).filterMap Occurrence.heard?).map Prod.fst)) =
      some (.ok (some [120]),
        ["first", "second", "first", "second", "first", "second", "first", "second", "first", "second"]) := by
    decide +kernel
  obtain ⟨⟨m, t₁, s₁⟩, hfirst, hstop⟩ := Option.map_eq_some_iff.1 hrun
  obtain ⟨houtcome, hheard⟩ := Prod.mk.inj hstop
  obtain ⟨client, ws₀, hbuild, hm⟩ := Builder.ends_of_first hfirst
  have hends := ends_trail (m.invokeSingle []) t₁ s₁
  rw [houtcome] at hends
  obtain ⟨rule, -, hall⟩ := instrumentation Builder.recovering Builder.offline hbuild
  obtain ⟨us, vs, o, episodes, hws, -, hloops, -, -, hclosing, -⟩ := hall m hm [] _ _ _ _ _ _ hends
  exact ⟨client, ws₀, t₁, s₁, m, _, _, _, hbuild, hm, hends, hheard, rule, us, vs, o, episodes, hws, hloops, hclosing⟩

end ResilientClient
