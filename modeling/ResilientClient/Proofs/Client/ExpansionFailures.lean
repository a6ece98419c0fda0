/-
Failures of the expansion. Whatever keeps a method from being expanded is a fault of its construction, and it is
found before anything is sent. An attempt that fails in this way leaves no trace but that its breaker admits it and
is told to ignore it, and the invocation ends there with this failure (`expansion_failures_end`).
-/
import ResilientClient.Proofs.Client.FinalFailures
import ResilientClient.Proofs.Pipeline.Bare

open ResilientClient.Fiber

namespace ResilientClient

variable {ε : Type}

/-- To be told to ignore a call is to have its permit dropped. -/
theorem BreakerRegistry.report_ignored_eq (r : BreakerRegistry) (permit : Permit) (t : Instant) :
    r.report permit t .ignored = (r.release permit, []) := by
  unfold report release
  cases r.get? permit.key <;> rfl

namespace Pipeline

/-! ## An attempt that comes to nothing -/

/-- The breaker of a key is asked at `t`, admits the call, and is told at once to ignore it; nothing else is done or
noted down than that, and what the breaker has to tell about itself. -/
structure Ignored (key : String) (t : Instant) (permit : Permit) (notices : List BreakerNotice)
    (asked told : Write (World ε)) : Prop where
  times : asked.time = t ∧ told.time = t
  admitted : (asked.before.breakers.acquire key t).1 = some permit
  counted : asked.after.breakers = (asked.before.breakers.acquire key t).2.1
  next : told.before = asked.after
  released : told.after.breakers = told.before.breakers.release permit
  noted : gainedIn World.past [asked, told] =
    notices.map (fun notice => .logged (notice.line key)) ++ [.admitted permit, .reported permit .ignored]
  outside : asked.after.outside = asked.before.outside ∧ told.after.outside = told.before.outside

/-- The path of an attempt that comes to nothing, behind the breaker of a key or without one. -/
inductive Forgone (t : Instant) : Option String → List (Write (World ε)) → Prop
  | unguarded : Forgone t none []
  | guarded {key : String} {permit : Permit} {notices : List BreakerNotice} {asked told : Write (World ε)} :
      Ignored key t permit notices asked told → Forgone t (some key) [asked, told]

/-- The breaker of a key, if there is one, admits a call at `t`. -/
def Admits (key? : Option String) (t : Instant) (s : World ε) : Prop :=
  ∀ key ∈ key?, (s.breakers.acquire key t).1 ≠ none

section Attempts

variable {key : String} {key? : Option String} {limit : Option Duration} {fallback : Option (Fallback ε)}
  {inner : Service ε} {call : Call} {e : Error} {o : Outcome} {t t' : Instant} {s s' : World ε}
  {ws : List (Write (World ε))}

/-- Nothing is sent, no listener is told anything, and no fallback is called. -/
theorem Forgone.silent (h : Forgone t key? ws) : sentIn ws = [] ∧
    (gainedIn World.past ws).filterMap Occurrence.heard? = [] ∧
    ∀ method cause, .recovered method cause ∉ gainedIn World.past ws := by
  cases h with
  | unguarded => exact ⟨rfl, rfl, fun _ _ => List.not_mem_nil⟩
  | guarded h =>
    unfold sentIn
    rw [h.noted]
    simp [Occurrence.sent?, Occurrence.heard?, Function.comp_def]

/-- A failure that is known at once is known within every time limit. -/
theorem limited_done (limit : Option Duration) (method : String) (o : Outcome) :
    limited limit method (.done o : Stage ε Outcome) = .done o := by
  cases limit <;> rfl

/-- A breaker that admits a call tells about itself, and its answer is noted down. -/
theorem noted_of_acquire {permit : Permit} (h : Ends (acquire key) t s ws (some permit) t' s') :
    t' = t ∧ ws = [⟨t, s, s'⟩] ∧ (s.breakers.acquire key t).1 = some permit ∧
      s'.breakers = (s.breakers.acquire key t).2.1 ∧ s'.outside = s.outside ∧
      ∃ notices : List BreakerNotice, gained s.past s'.past =
        notices.map (fun notice => .logged (notice.line key)) ++ [.admitted permit] := by
  obtain ⟨rfl, hanswer, rfl, rfl⟩ := ends_modifyGet.1 h
  have hadmitted : (s.breakers.acquire key t').1 = some permit := hanswer.symm
  refine ⟨rfl, rfl, hadmitted, rfl, rfl, ((s.breakers.forKey key t').1.acquire t').2.2, ?_⟩
  dsimp only [World.note]
  rw [gained_append, List.reverse_reverse, hadmitted]
  dsimp only [BreakerRegistry.acquire]
  rw [List.map_map]
  rfl

/-- Of a call that is ignored, only this is noted down. -/
theorem noted_of_ignored {permit : Permit} {u : Unit} (h : Ends (report permit .ignored) t s ws u t' s') :
    t' = t ∧ ws = [⟨t, s, s'⟩] ∧ s'.breakers = s.breakers.release permit ∧ s'.outside = s.outside ∧
      gained s.past s'.past = [.reported permit .ignored] := by
  obtain ⟨rfl, -, rfl, rfl⟩ := ends_modifyGet.1 h
  rw [BreakerRegistry.report_ignored_eq]
  exact ⟨rfl, rfl, rfl, rfl, gained_append [_] _⟩

/-- A guard that admits a call which fails at once concludes with the failure. -/
theorem concluded_of_guarding (hinner : inner call = .done (.error e))
    (hadmits : (s.breakers.acquire key t).1 ≠ none)
    (h : Ends (guarding key limit fallback inner call) t s ws o t' s') :
    ∃ us permit s₁ vs, ws = us ++ vs ∧ Ends (acquire key) t s us (some permit) t s₁ ∧
      Ends (conclude fallback call permit (.error e)) t s₁ vs o t' s' := by
  obtain ⟨us, answer, t₁, s₁, vs, rfl, hacquire, hrest⟩ := (ends_andThen _ _).1 h
  cases answer with
  | none =>
    obtain ⟨-, hanswer, -, -⟩ := ends_modifyGet.1 hacquire
    exact absurd hanswer.symm hadmits
  | some permit =>
    obtain ⟨rfl, -⟩ := noted_of_acquire hacquire
    obtain ⟨us', o', t₂, s₂, vs', rfl, hattempt, hconclude⟩ := (ends_andThen _ _).1 hrest
    have hdone := (ends_protect _ _).1 hattempt
    rw [hinner, limited_done] at hdone
    obtain ⟨rfl, rfl, rfl, rfl⟩ := ends_done.1 hdone
    exact ⟨us, permit, _, vs', rfl, hacquire, hconclude⟩

/-- Behind a breaker that admits it, a call that fails at once through a fault of its own comes to nothing. -/
theorem forgone_of_guarding (hinner : inner call = .done (.error e)) (hown : isOwnFault e = true)
    (hadmits : (s.breakers.acquire key t).1 ≠ none)
    (h : Ends (guarding key limit fallback inner call) t s ws o t' s') :
    o = .error e ∧ t' = t ∧ Forgone t (some key) ws := by
  obtain ⟨us, permit, s₁, vs, rfl, hacquire, hconclude⟩ := concluded_of_guarding hinner hadmits h
  obtain ⟨-, rfl, hadmitted, hcounted, houtside, notices, hnoted⟩ := noted_of_acquire hacquire
  simp only [conclude, if_pos hown] at hconclude
  obtain ⟨us', _, t₂, s₂, vs', rfl, hreport, hend⟩ := (ends_andThen _ _).1 hconclude
  obtain ⟨rfl, rfl, hreleased, houtside', hnoted'⟩ := noted_of_ignored hreport
  obtain ⟨rfl, rfl, rfl, rfl⟩ := ends_done.1 hend
  have hall : gainedIn World.past [⟨t', s, s₁⟩, ⟨t', s₁, s'⟩] =
      notices.map (fun notice => .logged (notice.line key)) ++ [.admitted permit, .reported permit .ignored] := by
    rw [gainedIn_cons, gainedIn_cons, gainedIn_nil, hnoted, hnoted', List.append_nil, List.append_assoc]
    rfl
  exact ⟨rfl, rfl, .guarded ⟨⟨rfl, rfl⟩, hadmitted, hcounted, rfl, hreleased, hall, houtside, houtside'⟩⟩

/-- A call for which the method cannot be expanded. -/
def Unexpanded (call : Call) (e : Error) : Prop :=
  ∃ base, baseUrl call = .ok base ∧ call.endpoint.expand call.args base = .error e

theorem Unexpanded.isConstruction (h : Unexpanded call e) : e.isConstruction = true := by
  obtain ⟨base, -, hexpand⟩ := h
  exact Endpoint.expand_error hexpand

theorem Unexpanded.executing_eq (h : Unexpanded call e) (exchange : Exchange ε) :
    executing exchange call = .done (.error e) := by
  obtain ⟨base, hbase, hexpand⟩ := h
  simp only [executing, prepare, hbase, hexpand]

end Attempts

end Pipeline

namespace Builder

open Pipeline

variable {b : Builder ε} {around : Surroundings ε} {call : Call} {e : Error} {o r : Outcome}

/-- An attempt that its breaker admits comes to nothing if the method cannot be expanded. -/
theorem forgone_of_backing {exchange : Exchange ε} {method : String} {t t' : Instant} {s s' : World ε}
    {ws : List (Write (World ε))} (h : Unexpanded call e) (hadmits : Admits (b.breakerKey? method) t s)
    (hends : Ends (b.backing exchange method call) t s ws o t' s') :
    o = .error e ∧ t' = t ∧ Forgone t (b.breakerKey? method) ws := by
  have hexecuting := h.executing_eq exchange
  unfold backing at hends
  unfold breakerKey? at hadmits ⊢
  cases hregistry : b.registry? with
  | none =>
    rw [hregistry] at hends
    dsimp only at hends
    rw [hexecuting] at hends
    obtain ⟨rfl, rfl, rfl, rfl⟩ := ends_done.1 hends
    exact ⟨rfl, rfl, .unguarded⟩
  | some registry =>
    rw [hregistry] at hends hadmits
    have hown : isOwnFault e = true := by
      rw [isOwnFault, h.isConstruction, Bool.or_true]
    exact forgone_of_guarding hexecuting hown (hadmits _ rfl) hends

/-- On each course of a call, a fault of the construction is the end. -/
theorem course_endsAt_construction {legs : List Leg} (h : b.course around call legs r) :
    EndsAt (fun e => e.isConstruction = true) legs r := by
  cases hretry : b.config.retry with
  | none =>
    unfold course at h
    rw [hretry] at h
    exact Balances.endsAt (fun e hfault hexchange => by simp [hexchange.not_construction] at hfault) h
  | some c => exact (course_endsAt hretry h).mono fun e hfault => .inl hfault

end Builder

open Pipeline

/-- A method that cannot be expanded fails in its construction. The retry policy of the client is that of its
configuration. Every invocation is a journey, each attempt on it has a path of its own, and if the method cannot be
expanded for an attempt that its breaker admits, then this path leaves no trace but that the breaker is told to
ignore it, nothing comes after it but that the listeners are told of the failure, and the invocation returns it. -/
theorem expansion_failures_end (b : Builder ε) (around : Surroundings ε) (hpolicy : b.retryPolicy = none)
    {client : Client ε} {t₀ t₁ : Instant} {s₀ s₁ : World ε} {ws₀ : List (Write (World ε))}
    (hbuild : Ends (b.build around) t₀ s₀ ws₀ (.ok client) t₁ s₁) :
    (∀ (endpoint : Endpoint) (args : List Argument) (base : String) (e : Error),
      endpoint.expand args base = .error e → e.isConstruction = true) ∧
    ∃ rule, HeaderRule.userAgent b.config.userAgent = .ok rule ∧
      ∀ m ∈ client.methods, ∀ (args : List Argument) (α : Type) (x : Stage ε α) (failed : Error → α),
        m.Invokes args x failed → ∀ t s ws a t' s', Ends x t s ws a t' s' →
          ∃ legs us vs r t₂ s₂, ws = us ++ vs ∧ b.MadeOf around rule m args legs t s us r t₂ s₂ ∧
            ∀ before call o after, legs = before ++ .attempt call o :: after →
              ∃ front t₃ s₃ mid t₄ s₄ back, us = front ++ (mid ++ back) ∧
                Journey b.resolver (b.backing (b.exchange around rule) m.key) before t s front t₃ s₃ ∧
                Ends (b.backing (b.exchange around rule) m.key call) t₃ s₃ mid o t₄ s₄ ∧
                ∀ e, Unexpanded call e → Admits (b.breakerKey? m.key) t₃ s₃ →
                  o = .error e ∧ t₄ = t₃ ∧ Forgone t₃ (b.breakerKey? m.key) mid ∧ after = [] ∧ back = [] ∧
                    r = .error e ∧ a = failed e ∧ Ends (m.tellFailure t e) t₂ s₂ vs () t' s' := by
  refine ⟨fun endpoint args base e h => Endpoint.expand_error h, ?_⟩
  obtain ⟨rule, hrule, hmethods⟩ := Builder.madeOf_of_dispatch hpolicy hbuild
  refine ⟨rule, hrule, fun m hm args α x failed hinvokes t s ws a t' s' hends => ?_⟩
  obtain ⟨us, r, t₂, s₂, vs, rfl, hdispatch, -, herror⟩ := hinvokes.dispatched hends
  obtain ⟨legs, hmade⟩ := hmethods m hm args t s us r t₂ s₂ hdispatch
  refine ⟨legs, us, vs, r, t₂, s₂, rfl, hmade, fun before call o after hlegs => ?_⟩
  have hjourney := hmade.journey
  rw [hlegs] at hjourney
  obtain ⟨front, t₃, s₃, behind, rfl, hbefore, hrest⟩ := hjourney.exists_of_append
  cases hrest with
  | @cons _ _ _ t₄ _ _ s₄ _ mid back hattempt hafter =>
    refine ⟨front, t₃, s₃, mid, t₄, s₄, back, rfl, hbefore, hattempt, fun e hfault hadmits => ?_⟩
    obtain ⟨rfl, htime, hforgone⟩ := Builder.forgone_of_backing hfault hadmits hattempt
    obtain ⟨rfl, rfl⟩ :=
      Builder.course_endsAt_construction hmade.course before call e after hlegs hfault.isConstruction
    cases hafter
    exact ⟨rfl, htime, hforgone, rfl, rfl, rfl, herror e rfl⟩

/-! ## A header that is at fault -/

namespace Builder

variable {b : Builder ε} {around : Surroundings ε} {call : Call} {r : Outcome} {legs : List Leg}

/-- Each course of a call of a URL begins with an attempt. -/
theorem course_head (hcourse : b.course around call legs r) {base : String} (htarget : call.target = .url base) :
    ∃ o, legs.head? = some (.attempt call o) := by
  have hinside : ∀ part r', Balances (b.config.balancer.getD .noFailover) call part r' →
      ∃ o, part.head? = some (.attempt call o) := by
    intro part r' h
    cases h with
    | direct => exact ⟨_, rfl⟩
    | stayed hservice => cases htarget.symm.trans hservice
    | full hservice => cases htarget.symm.trans hservice
  unfold course at hcourse
  cases hretry : b.config.retry with
  | none =>
    rw [hretry] at hcourse
    exact hinside _ _ hcourse
  | some c =>
    rw [hretry] at hcourse
    have hfailed : ∀ (round : Round c (Balances (b.config.balancer.getD .noFailover) call)) failed more, ∃ o,
        (roundsLegs around.draw b.allListeners call.method (round :: failed) ++ more).head? =
          some (.attempt call o) := by
      intro round failed more
      obtain ⟨o, ho⟩ := hinside _ _ round.taken
      exact ⟨o, by simp [roundsLegs, ho]⟩
    cases hcourse with
    | @settled failed _ _ _ hpart =>
      cases failed with
      | nil => exact hinside _ _ hpart
      | cons round failed => exact hfailed round failed _
    | @exhausted failed _ _ _ hpart =>
      cases failed with
      | nil =>
        obtain ⟨o, ho⟩ := hinside _ _ hpart
        exact ⟨o, by simp [roundsLegs, ho]⟩
      | cons round failed => exact hfailed round failed _
    | @full failed _ hfull =>
      cases failed with
      | nil => cases hfull
      | cons round failed =>
        have hhead := hfailed round failed []
        rwa [List.append_nil] at hhead

/-- A method with a header that may not have its value. -/
def taggedEndpoint : Endpoint :=
  ⟨"Api#get()", "GET", .compile "/", [], [(⟨"x-tag"⟩, [.compile "a\nb"])], [], none, none, none, .single⟩

/-- A client with retries, a breaker and a fallback. -/
def tagging : Builder Unit where
  target := .url "http://localhost"
  config := { ClientConfig.minimal with retry := some ⟨3, .none, false⟩, breaker := some .default }
  methods := [taggedEndpoint]
  transport := some fun _ => .done (.ok (.empty .ok))
  fallbacks := fun _ _ => some fun _ _ _ => .done (.ok (.empty .ok))

end Builder

/-- The first attempt is the only one, and its breaker is told to ignore it. -/
theorem expansion_failures_end_header :
    ∃ client ws₀ t₁ s₁ m ws t' s', Ends (Builder.tagging.build Builder.nowhere) 0 Builder.untouched ws₀ (.ok client)
      t₁ s₁ ∧ m ∈ client.methods ∧ Ends (m.execute []) t₁ s₁ ws (.error .invalidHeaderValue) t' s' ∧ s'.sent = [] ∧
      ∃ call us vs t₂ s₂, ws = us ++ vs ∧ Unexpanded call .invalidHeaderValue ∧
        Forgone t₁ (some "Api#get()@http://localhost") us ∧
        Ends (m.tellFailure t₁ .invalidHeaderValue) t₂ s₂ vs () t' s' := by
  have hrun : (Builder.tagging.first Builder.nowhere Builder.untouched).map (fun p =>
      ((p.2.2.breakers.acquire "Api#get()@http://localhost" p.2.1).1.isSome,
        ((p.1.execute []).run p.2.1 p.2.2).1, ((p.1.execute []).run p.2.1 p.2.2).2.2.sent)) =
      some (true, (.error .invalidHeaderValue : Outcome), []) := by decide +kernel
  obtain ⟨⟨m, t₁, s₁⟩, hfirst, hstop⟩ := Option.map_eq_some_iff.1 hrun
  obtain ⟨hadmitted, hstop⟩ := Prod.mk.inj hstop
  obtain ⟨houtcome, hsent⟩ := Prod.mk.inj hstop
  obtain ⟨client, ws₀, hbuild, hm⟩ := Builder.ends_of_first hfirst
  obtain ⟨ws, hends⟩ := ends_run (m.execute []) t₁ s₁
  rw [houtcome] at hends
  obtain ⟨-, rule, -, hall⟩ := expansion_failures_end Builder.tagging Builder.nowhere rfl hbuild
  obtain ⟨legs, us, vs, r, t₂, s₂, hws, hmade, hattempts⟩ := hall m hm [] _ _ _ .execute _ _ _ _ _ _ hends
  obtain ⟨o, hhead⟩ := Builder.course_head hmade.course rfl
  obtain ⟨after, hlegs⟩ := List.head?_eq_some_iff.1 hhead
  obtain ⟨front, t₃, s₃, mid, t₄, s₄, back, rfl, hbefore, -, hend⟩ := hattempts [] _ _ _ hlegs
  cases hbefore
  have hendpoint : m.endpoint = Builder.taggedEndpoint := Builder.endpoint_of_build (by rfl) hbuild hm
  have hfault : Unexpanded (.start m.endpoint [] Builder.tagging.target) .invalidHeaderValue := by
    rw [hendpoint]
    exact ⟨"http://localhost", rfl, by decide +kernel⟩
  have hkey : Builder.tagging.breakerKey? m.key = some "Api#get()@http://localhost" := by
    rw [Method.key, hendpoint]
    rfl
  rw [hkey] at hend
  obtain ⟨rfl, rfl, hforgone, rfl, rfl, rfl, -, htold⟩ := hend _ hfault fun key hmem => by
    cases hmem
    exact Option.isSome_iff_ne_none.1 hadmitted
  rw [List.nil_append, List.append_nil] at hws
  exact ⟨client, ws₀, t₄, s₁, m, ws, _, _, hbuild, hm, hends, hsent, _, mid, vs, t₂, s₂, hws, hfault, hforgone,
    htold⟩

end ResilientClient
