/-
Exhausted retries. A balancer that gives up wraps its last failure, and retries that give up wrap the failure of
their last round, from which the wrapper of the balancer is taken first. So a failure of an invocation is wrapped
once at most, what is inside is what the last attempt or lookup failed with, the count is that of the outermost
layer, and failures that no layer tries again are never inside (`exhausted_once`).
-/
import ResilientClient.Proofs.Client.Courses
import ResilientClient.Proofs.Client.Failures

open ResilientClient.Fiber ResilientClient.Pipeline

namespace ResilientClient

variable {ε : Type} {k : Nat}

namespace Pipeline

/-! ## The last thing that is tried -/

/-- What an attempt or a lookup failed with. -/
def Leg.failure? : Leg → Option Error
  | .attempt _ (.error e) => some e
  | .lookup _ (.error e) => some e
  | _ => none

/-- The leg is an attempt or a lookup. -/
def Leg.Tries : Leg → Prop
  | .attempt .. | .lookup .. => True
  | .log _ | .tell .. | .rest _ => False

/-- The last attempt or lookup failed in this way. -/
def LastFailed (legs : List Leg) (e : Error) : Prop :=
  ∃ before leg after, legs = before ++ leg :: after ∧ leg.failure? = some e ∧ ∀ other ∈ after, ¬ other.Tries

section Last

variable {legs more : List Leg} {e : Error}

theorem LastFailed.append_left (h : LastFailed more e) : LastFailed (legs ++ more) e := by
  obtain ⟨before, leg, after, rfl, hleg, hafter⟩ := h
  exact ⟨legs ++ before, leg, after, (List.append_assoc _ _ _).symm, hleg, hafter⟩

theorem LastFailed.append_log (h : LastFailed legs e) (line : TraceLine) : LastFailed (legs ++ [.log line]) e := by
  obtain ⟨before, leg, after, rfl, hleg, hafter⟩ := h
  refine ⟨before, leg, after ++ [.log line], by simp, hleg, fun other hmem => ?_⟩
  rcases List.mem_append.1 hmem with hmem | hmem
  · exact hafter other hmem
  · obtain rfl := List.mem_singleton.1 hmem
    exact id

theorem lastFailed_singleton {leg : Leg} (h : leg.failure? = some e) : LastFailed [leg] e :=
  ⟨[], leg, [], rfl, h, fun _ hmem => absurd hmem List.not_mem_nil⟩

theorem LastFailed.exists_mem (h : LastFailed legs e) : ∃ leg ∈ legs, leg.failure? = some e := by
  obtain ⟨before, leg, after, rfl, hleg, -⟩ := h
  exact ⟨leg, by simp, hleg⟩

end Last

/-! ## Failures of a balanced call -/

/-- Attempts and lookups on the journey fail with bare failures, and there are none others in the bodies of the
responses. -/
structure BareLegs (k : Nat) (legs : List Leg) : Prop where
  attempts : ∀ call o, .attempt call o ∈ legs → BareOutcome k o
  lookups : ∀ service e, .lookup service (.error e) ∈ legs → e.Bare k

section Legs

variable {legs more : List Leg} {e : Error}

theorem BareLegs.mono (h : BareLegs k legs) (hsub : more ⊆ legs) : BareLegs k more :=
  ⟨fun call o hmem => h.attempts call o (hsub hmem), fun service e hmem => h.lookups service e (hsub hmem)⟩

theorem BareLegs.of_lastFailed (h : BareLegs k legs) (hlast : LastFailed legs e) : e.Bare k := by
  obtain ⟨leg, hmem, hleg⟩ := hlast.exists_mem
  unfold Leg.failure? at hleg
  split at hleg
  · cases hleg
    exact h.attempts _ _ hmem
  · cases hleg
    exact h.lookups _ _ hmem
  · cases hleg

end Legs

/-- What a call fails with that makes at most `most` attempts. -/
inductive Fails (most : Nat) (legs : List Leg) : Error → Prop
  /-- The failure of the last attempt or lookup, unchanged. -/
  | last {e : Error} : LastFailed legs e → Fails most legs e
  /-- The budgets are used up. -/
  | exhausted {last : Error} {count : Nat} : count = attempts legs → LastFailed legs last →
      last.IsExchangeFault → Fails most legs (.exhausted count last)
  /-- The budgets are larger than what can be counted. -/
  | overflow : twoTo 32 ≤ most → Fails most legs .attemptOverflow

theorem Concludes.fails {config : BalancerConfig} {call : Call} {service : String} {left : List (Stay config)}
    {last : List Leg} {most : Nat} {e : Error} (h : Concludes config call service left last (.error e)) :
    Fails most (left.flatMap (Stay.legs call service) ++ last) e := by
  generalize hr : (Except.error e : Outcome) = r at h
  cases h with
  | unresolved =>
    cases hr
    exact .last (lastFailed_singleton rfl).append_left
  | @settled visit =>
    subst hr
    have hlast : LastFailed [.attempt (call.toServer visit.server) (.error e)] e := lastFailed_singleton rfl
    exact .last hlast.append_left.append_left
  | @exhausted stay total hall htotal =>
    cases hr
    have hlast : LastFailed [.attempt (call.toServer stay.server) (.error stay.last)] stay.last :=
      lastFailed_singleton rfl
    refine .exhausted ?_ (hlast.append_log _).append_left.append_left stay.fault
    simp only [attempts_append, attempts_attempt, attempts_log, attempts_nil, Visit.attempts_legs]
    omega

theorem Balances.fails {config : BalancerConfig} {call : Call} {legs : List Leg} {e : Error}
    (h : Balances config call legs (.error e)) : Fails (mostAttempts config call.target) legs e := by
  generalize hr : (Except.error e : Outcome) = r at h
  cases h with
  | direct =>
    subst hr
    exact .last (lastFailed_singleton rfl)
  | stayed _ _ hconcludes =>
    subst hr
    exact hconcludes.fails
  | @full service left visit htarget hleft hfull =>
    cases hr
    refine .overflow (Nat.not_lt.1 fun hbudget => ?_)
    rw [mostAttempts, htarget] at hbudget
    exact visit.not_full call service hleft hbudget hfull

theorem Balances.attempt_of_ok {config : BalancerConfig} {call : Call} {legs : List Leg} {response : Response}
    (h : Balances config call legs (.ok response)) : ∃ call', .attempt call' (.ok response) ∈ legs := by
  generalize hr : (Except.ok response : Outcome) = r at h
  cases h with
  | direct =>
    subst hr
    exact ⟨call, List.mem_singleton_self _⟩
  | stayed _ _ hconcludes =>
    cases hconcludes with
    | unresolved => cases hr
    | @settled visit =>
      subst hr
      exact ⟨call.toServer visit.server, by simp⟩
    | exhausted => cases hr
  | full => cases hr

end Pipeline

/-! ## Failures of a client -/

theorem Error.IsExchangeFault.exhausted {e : Error} (h : e.IsExchangeFault) (attempts : Nat) :
    (Error.exhausted attempts e).IsExchangeFault := by
  unfold IsExchangeFault HasServerStatus status? at h ⊢
  rwa [rootCause_exhausted]

namespace Builder

variable {b : Builder ε} {around : Surroundings ε} {rule : HeaderRule} {m : Method ε} {args : List Argument}
  {call : Call} {legs : List Leg} {t t' : Instant} {s s' : World ε} {ws : List (Write (World ε))} {r : Outcome}
  {e : Error} {response : Response}

/-- What is inside the wrapper of exhausted retries, and what the wrapper counts: the rounds of the retries if
there are any, and otherwise the attempts. -/
structure Exhausts (b : Builder ε) (k : Nat) (legs : List Leg) (count : Nat) (last : Error) : Prop where
  bare : last.Bare k
  counted : count = match b.config.retry with
    | some c => c.maxRetries + 1
    | none => attempts legs
  /-- The failure of the last attempt or lookup, unless there were too many attempts to count them. -/
  latest : LastFailed legs last ∨ last = .attemptOverflow ∧
    twoTo 32 ≤ mostAttempts (b.config.balancer.getD .noFailover) b.target
  construction : last.isConstruction = false
  circuitOpen : last.isCircuitOpen = false
  bodyTooLarge : last.isBodyTooLarge = false
  clientRequest : last.isClientRequestError = true → ∃ c, b.config.retry = some c ∧ c.retryClientErrors = true

/-- A failure of a call is bare, or a wrapper of exhausted retries around one that is. -/
inductive Wraps (b : Builder ε) (k : Nat) (legs : List Leg) : Error → Prop
  | bare {e : Error} : e.Bare k → Wraps b k legs e
  | exhausted {count : Nat} {last : Error} : b.Exhausts k legs count last → Wraps b k legs (.outOfRetries count last)

theorem Exhausts.of_fault {last : Error} {count : Nat} (hbare : last.Bare k)
    (hcount : count = match b.config.retry with
      | some c => c.maxRetries + 1
      | none => attempts legs)
    (hlast : LastFailed legs last) (hfault : last.IsExchangeFault) : b.Exhausts k legs count last where
  bare := hbare
  counted := hcount
  latest := .inl hlast
  construction := hfault.not_construction
  circuitOpen := hfault.not_circuitOpen
  bodyTooLarge := hfault.not_bodyTooLarge
  clientRequest := fun h => by simp [hfault.not_clientRequestError] at h

/-- What retries give up with, after a round that failed in a way that is retried. -/
theorem Exhausts.of_round {c : RetryConfig} {last : Error} (hretry : b.config.retry = some c) (hbare : last.Bare k)
    (hlatest : LastFailed legs last ∨ last = .attemptOverflow ∧
      twoTo 32 ≤ mostAttempts (b.config.balancer.getD .noFailover) b.target)
    (hretried : ¬ c.Final last) : b.Exhausts k legs (c.maxRetries + 1) last where
  bare := hbare
  counted := by rw [hretry]
  latest := hlatest
  construction := Bool.eq_false_iff.2 fun h => hretried (.inl h)
  circuitOpen := Bool.eq_false_iff.2 fun h => hretried (.inr (.inl h))
  bodyTooLarge := Bool.eq_false_iff.2 fun h => hretried (.inr (.inr (.inl h)))
  clientRequest := fun h => ⟨c, hretry, by
    by_contra hkept
    exact hretried (.inr (.inr (.inr ⟨Bool.eq_false_iff.2 hkept, h⟩)))⟩

theorem bare_attemptOverflow : Error.attemptOverflow.Bare k := ⟨nofun, Nat.zero_le k⟩

/-- What a call fails with, on each of its courses. -/
theorem course_fails (htarget : call.target = b.target) (hlegs : BareLegs k legs)
    (h : b.course around call legs (.error e)) : b.Wraps k legs e := by
  unfold course at h
  cases hretry : b.config.retry with
  | none =>
    rw [hretry] at h
    cases Balances.fails h with
    | last hlast => exact .bare (hlegs.of_lastFailed hlast)
    | exhausted hcount hlast hfault =>
      have hbare := hlegs.of_lastFailed hlast
      rw [hbare.exhausted_eq]
      exact .exhausted (.of_fault hbare (by rw [hretry]; exact hcount) hlast hfault)
    | overflow => exact .bare bare_attemptOverflow
  | some c =>
    rw [hretry] at h
    dsimp only at h
    generalize hr : (Except.error e : Outcome) = r at h
    cases h with
    | @settled failed part _ _ hround hsettles =>
      subst hr
      have hpart : BareLegs k part := hlegs.mono (List.subset_append_right _ _)
      cases hround.fails with
      | last hlast => exact .bare (hpart.of_lastFailed hlast)
      | exhausted _ _ hfault => exact absurd (hfault.exhausted _) (hsettles _ rfl).not_exchangeFault
      | overflow => exact .bare bare_attemptOverflow
    | @exhausted failed part e' _ hround hretried =>
      cases hr
      have hpart : BareLegs k part :=
        hlegs.mono fun leg hleg => List.mem_append_right _ (List.mem_append_left _ hleg)
      cases hround.fails with
      | last hlast =>
        have hbare := hpart.of_lastFailed hlast
        rw [hbare.exhausted_eq]
        exact .exhausted (.of_round hretry hbare (.inl (hlast.append_log _).append_left) hretried)
      | exhausted _ hlast hfault =>
        -- the wrapper of the balancer is taken off
        have hbare := hpart.of_lastFailed hlast
        rw [hbare.exhausted_eq]
        exact .exhausted (.of_fault hbare (by rw [hretry]) (hlast.append_log _).append_left hfault)
      | overflow hmost =>
        rw [htarget] at hmost
        exact .exhausted (.of_round hretry bare_attemptOverflow (.inr ⟨rfl, hmost⟩) hretried)
    | full =>
      cases hr
      exact .bare bare_attemptOverflow

/-- A response is that of an attempt. -/
theorem course_attempt_of_ok (h : b.course around call legs (.ok response)) :
    ∃ call', .attempt call' (.ok response) ∈ legs := by
  unfold course at h
  cases hretry : b.config.retry with
  | none =>
    rw [hretry] at h
    exact Balances.attempt_of_ok h
  | some c =>
    rw [hretry] at h
    dsimp only at h
    generalize hr : (Except.ok response : Outcome) = r at h
    cases h with
    | settled _ hround =>
      subst hr
      obtain ⟨call', hmem⟩ := hround.attempt_of_ok
      exact ⟨call', List.mem_append_right _ hmem⟩
    | exhausted | full => cases hr

/-! ## Collaborators -/

/-- What the collaborators of a client return is bare; a handler of statuses may return a failure that is in the
body, and a fallback the one that it is told. -/
structure Bare (b : Builder ε) (around : Surroundings ε) (k : Nat) : Prop where
  transport : ∀ request t o ws r t' o',
    Ends (b.transport.getD (HttpTransport.transport b.config.transport around.network) request) t o ws r t' o' →
      BareOutcome k r
  interceptors : ∀ change ∈ b.interceptors, ∀ request e, change request = .error e → e.Bare k
  statusHandler : ∀ method response t o ws e t' o', response.body.Bare k →
    Ends ((b.statusHandler.getD (.default around.wallClock)).decode method response) t o ws e t' o' → e.Bare k
  resolver : ∀ look, b.resolver = some look → ∀ service t o ws e t' o',
    Ends (look service) t o ws (.error e) t' o' → e.Bare k
  fallbacks : ∀ method f, b.fallbacks b.target method = some f → f.Bare k

theorem Bare.exchange (h : b.Bare around k) (rule : HeaderRule) : (b.exchange around rule).Bare k where
  transport := h.transport
  interceptors := by
    intro change hmem request e hchange
    rcases List.mem_append.1 hmem with hown | hrule
    · exact h.interceptors change hown request e hchange
    · obtain rfl := List.mem_singleton.1 hrule
      cases hchange
  statusHandler := h.statusHandler

theorem Bare.outcome (h : b.Bare around k) {method : String}
    (hends : Ends (b.backing (b.exchange around rule) method call) t s ws r t' s') : BareOutcome k r := by
  unfold backing at hends
  cases hregistry : b.registry? with
  | none =>
    rw [hregistry] at hends
    exact bare_executing (h.exchange rule) hends
  | some registry =>
    rw [hregistry] at hends
    exact bare_guarding (h.exchange rule) (h.fallbacks method) hends

theorem Bare.bareLegs (h : b.Bare around k) (hmade : b.MadeOf around rule m args legs t s ws r t' s') :
    BareLegs k legs := by
  constructor
  · intro call o hmem
    obtain ⟨_, _, _, _, _, hattempt⟩ := hmade.journey.made_of_mem hmem
    exact h.outcome hattempt
  · intro service e hmem
    obtain ⟨_, _, _, _, _, hlookup⟩ := hmade.journey.made_of_mem hmem
    obtain ⟨look, _, _, _, hlook, hresolve⟩ := hlookup.resolved
    exact h.resolver look hlook _ _ _ _ _ _ _ hresolve

/-- The failures of a call, and those in the body of its response. -/
theorem wraps_of_sourced (hbare : b.Bare around k) (hmade : b.MadeOf around rule m args legs t s ws r t' s')
    (h : m.Sourced r e) : e.Bare k ∨ r = .error e ∧ b.Wraps k legs e := by
  have hlegs := hbare.bareLegs hmade
  cases h with
  | item hmem =>
    cases r with
    | ok response =>
      obtain ⟨call, hattempt⟩ := course_attempt_of_ok hmade.course
      have hbody : response.body.Bare k := hlegs.attempts _ _ hattempt
      exact .inl (hbody e hmem)
    | error e' =>
      cases List.mem_singleton.1 hmem
      exact .inr ⟨rfl, course_fails rfl hlegs hmade.course⟩
  | tooLarge actual => exact .inl (bare_bodyTooLarge _ actual)
  | json fault => exact .inl ⟨nofun, Nat.zero_le k⟩

end Builder

/-- The retry policy of the client is that of its configuration, and its collaborators return no wrapper of
exhausted retries. In a failure that an invocation returns there is then one such wrapper at most, beside those
inside failures of the collaborators (`k` of them, so with `k = 0` there are no others). If the failure is the
wrapper, then it was put there by retries or a balancer, around what the last attempt or lookup failed with:
after as many rounds as the retries allow and one more, or, without retries, with the number of all attempts. -/
theorem exhausted_once (b : Builder ε) (around : Surroundings ε) (k : Nat) (hpolicy : b.retryPolicy = none)
    (hbare : b.Bare around k) {client : Client ε} {t₀ t₁ : Instant} {s₀ s₁ : World ε}
    {ws₀ : List (Write (World ε))} (hbuild : Ends (b.build around) t₀ s₀ ws₀ (.ok client) t₁ s₁) :
    ∃ rule, HeaderRule.userAgent b.config.userAgent = .ok rule ∧
      ∀ m ∈ client.methods, ∀ (args : List Argument) (α : Type) (x : Stage ε α) (failures : α → List Error),
        m.Yields args x failures → ∀ t s ws a t' s', Ends x t s ws a t' s' → ∀ e ∈ failures a,
          e.exhaustions ≤ k + 1 ∧ ∀ count last, e = .outOfRetries count last →
            ∃ us vs t₂ s₂, ws = us ++ vs ∧ (∃ legs, b.MadeOf around rule m args legs t s us (.error e) t₂ s₂) ∧
              ∀ legs, b.MadeOf around rule m args legs t s us (.error e) t₂ s₂ → b.Exhausts k legs count last := by
  obtain ⟨rule, hrule, hmethods⟩ := Builder.madeOf_of_dispatch hpolicy hbuild
  refine ⟨rule, hrule, fun m hm args α x failures hyields t s ws a t' s' hends e he => ?_⟩
  obtain ⟨us, r, t₂, s₂, vs, rfl, hdispatch, hsource⟩ := hyields.sourced hends he
  obtain ⟨legs, hmade⟩ := hmethods m hm args t s us r t₂ s₂ hdispatch
  rcases Builder.wraps_of_sourced hbare hmade hsource with hown | ⟨rfl, hwraps⟩
  · exact ⟨Nat.le_succ_of_le hown.within, fun count last hwrapper => absurd hwrapper (hown.own count last)⟩
  · constructor
    · cases hwraps with
      | bare hown => exact Nat.le_succ_of_le hown.within
      | exhausted hexhausts => exact Nat.succ_le_succ hexhausts.bare.within
    · rintro count last rfl
      refine ⟨us, vs, t₂, s₂, rfl, ⟨legs, hmade⟩, fun legs' hmade' => ?_⟩
      cases Builder.course_fails rfl (hbare.bareLegs hmade') hmade'.course with
      | bare hown => exact absurd rfl (hown.own count last)
      | exhausted hexhausts => exact hexhausts

/-! ## A service that stays overloaded -/

/-- If no failure is in the body of the answer, there is no wrapper around. -/
theorem Builder.bare_answering {answer : Response} (retries : Nat) (hbody : answer.body.Bare 0) :
    (answering answer retries).Bare nowhere 0 where
  transport := by
    intro request t o ws r t' o' h
    obtain ⟨-, rfl, -, -⟩ := ends_done.1 h
    exact hbody
  interceptors := fun change hmem => absurd hmem List.not_mem_nil
  statusHandler := fun _ _ _ _ _ _ _ _ hbody h => bare_decodeStatus hbody h
  resolver := by
    intro look hlook service t o ws e t' o' h
    cases hlook
    cases (ends_done.1 h).2.1
  fallbacks := fun method f hf => by cases hf

/-- A 503 as the answer, and one retry: both rounds end in the wrapper of the balancer, and the failure of the
invocation has one wrapper, with the two rounds counted. -/
theorem exhausted_once_overloaded :
    let b := Builder.answering ⟨⟨503⟩, .empty, [], none⟩ 1
    let overloaded : Error := .status "Api#get()" ⟨503⟩ "" none none
    ∃ client ws₀ t₁ s₁ m ws t' s', b.Bare Builder.nowhere 0 ∧
      Ends (b.build Builder.nowhere) 0 Builder.untouched ws₀ (.ok client) t₁ s₁ ∧ m ∈ client.methods ∧
      Ends (m.execute []) t₁ s₁ ws (.error (.outOfRetries 2 overloaded)) t' s' ∧
      ∃ rule us vs t₂ s₂ legs, ws = us ++ vs ∧
        b.MadeOf Builder.nowhere rule m [] legs t₁ s₁ us (.error (.outOfRetries 2 overloaded)) t₂ s₂ ∧
        b.Exhausts 0 legs 2 overloaded := by
  intro b overloaded
  have hrun : (b.alone Builder.nowhere Builder.untouched).map (fun p => p.1) =
      some (.error (.outOfRetries 2 overloaded) : Outcome) := by decide +kernel
  have hbare : b.Bare Builder.nowhere 0 := Builder.bare_answering 1 fun e hmem => absurd hmem List.not_mem_nil
  obtain ⟨⟨o, t', s'⟩, halone, ho⟩ := Option.map_eq_some_iff.1 hrun
  obtain rfl : o = .error (.outOfRetries 2 overloaded) := ho
  obtain ⟨client, ws₀, t₁, s₁, m, ws, hbuild, hm, hends⟩ := Builder.ends_of_alone halone
  obtain ⟨rule, -, hall⟩ := exhausted_once b Builder.nowhere 0 rfl hbare hbuild
  obtain ⟨-, hwrapped⟩ := hall m hm [] _ _ _ .execute _ _ _ _ _ _ hends _ List.mem_cons_self
  obtain ⟨us, vs, t₂, s₂, hws, ⟨legs, hmade⟩, hexhausts⟩ := hwrapped 2 overloaded rfl
  exact ⟨client, ws₀, t₁, s₁, m, ws, t', s', hbare, hbuild, hm, hends, rule, us, vs, t₂, s₂, legs, hws, hmade,
    hexhausts legs hmade⟩

end ResilientClient
