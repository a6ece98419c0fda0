/-
Interceptions. An attempt the request of which is refused by an interceptor sends nothing and is told to nobody. But
what it is refused with is a failure of the attempt like any other, so that the layers around take it for what its
kind says: it ends the invocation exactly if retries and balancing take this kind for final (`interception`), and one
of a service goes to the fallback. An interceptor that refuses a request with a time limit has it retried
(`refused_request_is_retried`).
-/
import ResilientClient.Proofs.Client.ExpansionFailures
import ResilientClient.Proofs.Pipeline.Narration

open ResilientClient.Fiber

namespace ResilientClient

variable {ε : Type}

namespace Pipeline

/-! ## Refused requests -/

/-- A call the request of which is refused by the interceptors. -/
def Intercepted (interceptors : List Interceptor) (call : Call) (e : Error) : Prop :=
  ∃ base request, baseUrl call = .ok base ∧ call.endpoint.expand call.args base = .ok request ∧
    request.intercept interceptors = .error e

/-- What a guard returns for a failure that is known: the failure itself if it is the client's own or if there is no
fallback, and otherwise what the fallback makes of it. -/
inductive Settled (fallback : Option (Fallback ε)) (call : Call) (e : Error) : Outcome → Prop
  | returned : isOwnFault e = true ∨ fallback = none → Settled fallback call e (.error e)
  | recovered {f : Fallback ε} {t t' : Instant} {o o' : Outside ε} {ws : List (Write (Outside ε))} {r : Outcome} :
      isOwnFault e = false → fallback = some f → Ends (f call.method call.args e) t o ws r t' o' →
      Settled fallback call e r

section Attempts

variable {interceptors : List Interceptor} {call : Call} {e : Error} {key : String} {limit : Option Duration}
  {fallback : Option (Fallback ε)} {inner : Service ε} {t t' : Instant} {s s' : World ε}
  {ws : List (Write (World ε))} {o : Outcome}

theorem Intercepted.executing_eq {exchange : Exchange ε} (h : Intercepted exchange.interceptors call e) :
    executing exchange call = .done (.error e) := by
  obtain ⟨base, request, hbase, hexpand, hrefused⟩ := h
  simp only [executing, prepare, hbase, hexpand, hrefused]

theorem settled_of_recover (hown : isOwnFault e = false) (h : Ends (recover fallback call e) t s ws o t' s') :
    Settled fallback call e o := by
  cases fallback with
  | none =>
    obtain ⟨-, rfl, -, -⟩ := ends_done.1 h
    exact .returned (.inr rfl)
  | some f =>
    obtain ⟨us₁, _, t₁, s₁, vs₁, -, -, h₁⟩ := (ends_andThen _ _).1 h
    obtain ⟨us₂, _, t₂, s₂, vs₂, -, -, h₂⟩ := (ends_andThen _ _).1 h₁
    exact .recovered hown rfl (ends_outside h₂).1

/-- A guard that admits a call which fails at once returns what it makes of the failure. -/
theorem settled_of_guarding (hinner : inner call = .done (.error e)) (hadmits : (s.breakers.acquire key t).1 ≠ none)
    (h : Ends (guarding key limit fallback inner call) t s ws o t' s') : Settled fallback call e o := by
  obtain ⟨us, permit, s₁, vs, -, -, hconclude⟩ := concluded_of_guarding hinner hadmits h
  simp only [conclude] at hconclude
  split at hconclude
  · rename_i hown
    obtain ⟨us', _, t₂, s₂, vs', -, -, hend⟩ := (ends_andThen _ _).1 hconclude
    obtain ⟨-, rfl, -, -⟩ := ends_done.1 hend
    exact .returned (.inl hown)
  · rename_i hservice
    obtain ⟨us', _, t₂, s₂, vs', -, -, hrecover⟩ := (ends_andThen _ _).1 hconclude
    exact settled_of_recover (by simpa using hservice) hrecover

/-- Whether a guard admits it or not, a call that fails at once leaves only asides. -/
theorem asides_guarding (hinner : inner call = .done (.error e)) :
    Obeys Asides (guarding key limit fallback inner call) := by
  refine obeys_andThen (asides_acquire key) fun answer => ?_
  cases answer with
  | none => exact obeys_andThen (asides_log _) fun _ => asides_recover _ _ _
  | some permit =>
    refine obeys_andThen ?_ fun o => asides_conclude _ _ _ _
    rw [hinner, limited_done]
    exact obeys_done _

end Attempts

/-! ## The last leg -/

section Last

variable {config : BalancerConfig} {call call' : Call} {service : String} {legs : List Leg} {e : Error} {r : Outcome}

/-- A visit does not end with an attempt. -/
theorem Visit.getLast?_legs (visit : Visit config) (o : Outcome) :
    (visit.legs call service).getLast? ≠ some (.attempt call' o) := by
  unfold Visit.legs triedAgain
  rcases List.eq_nil_or_concat visit.again with hnone | ⟨again, e, hagain⟩
  · simp [hnone]
  · simp [hagain, List.getLast?_cons, List.getLast?_append]

theorem Balances.ne_nil (h : Balances config call legs r) : legs ≠ [] := by
  cases h with
  | direct => exact List.cons_ne_nil _ _
  | stayed _ _ hconcludes => cases hconcludes <;> simp
  | full => simp [Visit.legs]

/-- A balanced call that ends with the failure of an attempt returns it, and it is no fault of an exchange if the
target is a service. -/
theorem Balances.of_last (h : Balances config call legs r) (hlast : legs.getLast? = some (.attempt call' (.error e))) :
    r = .error e ∧ (call.target.isLogical = true → ¬ e.IsExchangeFault) := by
  -- the last thing is an attempt only at a URL or when its outcome is final
  cases h with
  | direct htarget =>
    cases hlast
    exact ⟨rfl, fun hlogical => by simp [htarget, Target.isLogical] at hlogical⟩
  | @stayed _ left _ _ htarget hleft hconcludes =>
    cases hconcludes with
    | unresolved => simp at hlast
    | settled hfinal =>
      rw [← List.append_assoc, List.getLast?_concat] at hlast
      cases hlast
      exact ⟨rfl, fun _ => hfinal e rfl⟩
    | exhausted => simp [List.getLast?_append] at hlast
  | @full service left visit =>
    have hvisit : visit.legs call service ≠ [] := List.cons_ne_nil _ _
    rw [List.getLast?_append_of_ne_nil _ hvisit] at hlast
    exact absurd hlast (visit.getLast?_legs (.error e))

/-- If the service inside ends with the failures of attempts only by returning them, then a call that is retried ends
with an attempt only if its failure is final. -/
theorem Retries.of_last {c : RetryConfig} {draw : Nat → Binary64} {listeners : List Listener} {method : String}
    {inside : Course} (hinside : ∀ legs r, inside legs r →
      legs ≠ [] ∧ ∀ call e, legs.getLast? = some (.attempt call (.error e)) → r = .error e)
    (h : Retries c draw listeners method inside legs r) (hlast : legs.getLast? = some (.attempt call (.error e))) :
    c.Final e := by
  cases h with
  | settled _ hpart hsettles =>
    obtain ⟨hne, hreturned⟩ := hinside _ _ hpart
    rw [List.getLast?_append_of_ne_nil _ hne] at hlast
    exact hsettles e (hreturned call e hlast)
  | exhausted => simp [List.getLast?_append] at hlast
  | @full failed _ hfull =>
    -- there are failed rounds, and the last thing is the interval behind one
    rcases List.eq_nil_or_concat failed with rfl | ⟨failed, round, rfl⟩
    · cases hfull
    · simp [roundsLegs_append, interval, List.getLast?_append] at hlast

end Last

end Pipeline

namespace Builder

open Pipeline

variable {b : Builder ε} {around : Surroundings ε} {call call' : Call} {e : Error} {o r : Outcome} {legs : List Leg}
  {exchange : Exchange ε} {method : String}

/-- The fallback of a method; without breakers there is none. -/
def fallback? (b : Builder ε) (method : String) : Option (Fallback ε) :=
  b.registry?.bind fun _ => b.fallbacks b.target method

/-- Neither retries nor balancing make another attempt after a failure. -/
def TakesForFinal (b : Builder ε) (e : Error) : Prop :=
  match b.config.retry with
  | some c => c.Final e
  | none => b.target.isLogical = true → ¬ e.IsExchangeFault

theorem settled_of_backing {t t' : Instant} {s s' : World ε} {ws : List (Write (World ε))}
    (h : Intercepted exchange.interceptors call e) (hadmits : Admits (b.breakerKey? method) t s)
    (hends : Ends (b.backing exchange method call) t s ws o t' s') : Settled (b.fallback? method) call e o := by
  unfold backing at hends
  unfold breakerKey? at hadmits
  unfold fallback?
  cases hregistry : b.registry? with
  | none =>
    rw [hregistry] at hends
    dsimp only at hends
    rw [h.executing_eq] at hends
    obtain ⟨-, rfl, -, -⟩ := ends_done.1 hends
    exact .returned (.inr rfl)
  | some registry =>
    rw [hregistry] at hends hadmits
    exact settled_of_guarding h.executing_eq (hadmits _ rfl) hends

theorem asides_of_backing (h : Intercepted exchange.interceptors call e) :
    Obeys Asides (b.backing exchange method call) := by
  unfold backing
  cases b.registry? with
  | some registry => exact asides_guarding h.executing_eq
  | none =>
    dsimp only
    rw [h.executing_eq]
    exact obeys_done _

/-- A course ends at every failure that is taken for final, -/
theorem course_endsAt_taken (htarget : call.target = b.target) (h : b.course around call legs r) :
    EndsAt b.TakesForFinal legs r := by
  unfold TakesForFinal
  cases hretry : b.config.retry with
  | some c => exact course_endsAt hretry h
  | none =>
    unfold course at h
    rw [hretry] at h
    cases hgoal : b.target with
    | service service => exact Balances.endsAt (fun e hfinal => hfinal rfl) h
    | url base =>
      -- a call of a URL is one attempt
      cases h with
      | direct => exact endsAt_attempt _ _
      | stayed hservice => cases hservice.symm.trans (htarget.trans hgoal)
      | full hservice => cases hservice.symm.trans (htarget.trans hgoal)

/-- and at no other. -/
theorem taken_of_last (htarget : call.target = b.target) (h : b.course around call legs r)
    (hlast : legs.getLast? = some (.attempt call' (.error e))) : b.TakesForFinal e := by
  unfold course at h
  unfold TakesForFinal
  cases hretry : b.config.retry with
  | some c =>
    rw [hretry] at h
    exact Retries.of_last (fun legs r hround => ⟨hround.ne_nil, fun _ _ hend => (hround.of_last hend).1⟩) h hlast
  | none =>
    rw [hretry] at h
    rw [← htarget]
    exact (Balances.of_last h hlast).2

end Builder

open Pipeline

/-- A request that is refused is not sent. The retry policy of the client is that of its configuration. Every
invocation is a journey, each attempt on it has a path of its own, and if the interceptors refuse the request of an
attempt, then nothing is sent on this path and no listener is told anything. The attempt ends with what its guard
makes of the failure, and if that is a failure, then nothing comes after the attempt, and the invocation returns it,
exactly if it is taken for final. -/
theorem interception (b : Builder ε) (around : Surroundings ε) (hpolicy : b.retryPolicy = none)
    {client : Client ε} {t₀ t₁ : Instant} {s₀ s₁ : World ε} {ws₀ : List (Write (World ε))}
    (hbuild : Ends (b.build around) t₀ s₀ ws₀ (.ok client) t₁ s₁) :
    ∃ rule, HeaderRule.userAgent b.config.userAgent = .ok rule ∧
      ∀ m ∈ client.methods, ∀ (args : List Argument) (α : Type) (x : Stage ε α) (failed : Error → α),
        m.Invokes args x failed → ∀ t s ws a t' s', Ends x t s ws a t' s' →
          ∃ legs us vs r t₂ s₂, ws = us ++ vs ∧ b.MadeOf around rule m args legs t s us r t₂ s₂ ∧
            ∀ before call o after, legs = before ++ .attempt call o :: after →
              ∃ front t₃ s₃ mid t₄ s₄ back, us = front ++ (mid ++ back) ∧
                Journey b.resolver (b.backing (b.exchange around rule) m.key) before t s front t₃ s₃ ∧
                Ends (b.backing (b.exchange around rule) m.key call) t₃ s₃ mid o t₄ s₄ ∧
                ∀ e, Intercepted (b.exchange around rule).interceptors call e →
                  sentIn mid = [] ∧ (gainedIn World.past mid).filterMap Occurrence.heard? = [] ∧
                  (Admits (b.breakerKey? m.key) t₃ s₃ → Settled (b.fallback? m.key) call e o) ∧
                  ∀ e', o = .error e' → (after = [] ↔ b.TakesForFinal e') ∧
                    (b.TakesForFinal e' → back = [] ∧ r = .error e' ∧ a = failed e' ∧
                      Ends (m.tellFailure t e') t₂ s₂ vs () t' s') := by
  obtain ⟨rule, hrule, hmethods⟩ := Builder.madeOf_of_dispatch hpolicy hbuild
  refine ⟨rule, hrule, fun m hm args α x failed hinvokes t s ws a t' s' hends => ?_⟩
  obtain ⟨us, r, t₂, s₂, vs, rfl, hdispatch, -, herror⟩ := hinvokes.dispatched hends
  obtain ⟨legs, hmade⟩ := hmethods m hm args t s us r t₂ s₂ hdispatch
  refine ⟨legs, us, vs, r, t₂, s₂, rfl, hmade, fun before call o after hlegs => ?_⟩
  have hjourney := hmade.journey
  rw [hlegs] at hjourney
  obtain ⟨front, t₃, s₃, behind, rfl, hbefore, hrest⟩ := hjourney.exists_of_append
  cases hrest with
  | @cons _ _ _ t₄ _ _ s₄ _ mid back hattempt hafter =>
    refine ⟨front, t₃, s₃, mid, t₄, s₄, back, rfl, hbefore, hattempt, fun e hrefused => ?_⟩
    have hsilent : Narrates (b.exchange around rule).listeners mid [] :=
      Asides.narrates (Builder.asides_of_backing hrefused) hattempt
    refine ⟨hsilent.sent, hsilent.heard, fun hadmits => Builder.settled_of_backing hrefused hadmits hattempt, ?_⟩
    rintro e' rfl
    have hend := Builder.course_endsAt_taken rfl hmade.course before call e' after hlegs
    refine ⟨⟨fun hnothing => ?_, fun htaken => (hend htaken).1⟩, fun htaken => ?_⟩
    · have hlast : legs.getLast? = some (.attempt call (.error e')) := by
        rw [hlegs, hnothing, List.getLast?_concat]
      exact Builder.taken_of_last rfl hmade.course hlast
    · obtain ⟨rfl, rfl⟩ := hend htaken
      cases hafter
      exact ⟨rfl, rfl, herror e' rfl⟩

/-! ## An interceptor that refuses everything -/

namespace Builder

/-- A client with one retry and an interceptor that refuses every request with the same failure. -/
def refusing (e : Error) : Builder Unit where
  target := .url "https://localhost"
  config := { ClientConfig.minimal with retry := some ⟨1, .none, false⟩ }
  methods := [getEndpoint]
  transport := some fun _ => .done (.ok (.empty .ok))
  interceptors := [fun _ => .error e]

/-- Whatever the failure is, it is what the call of the method is refused with. -/
theorem intercepted_of_refusing (e : Error) (rule : HeaderRule) :
    Intercepted ((refusing e).exchange nowhere rule).interceptors (.start getEndpoint [] (refusing e).target) e := by
  have hexpands : (getEndpoint.expand [] "https://localhost").isOk = true := by decide +kernel
  cases hrequest : getEndpoint.expand [] "https://localhost" with
  | error e' => rw [hrequest] at hexpands; cases hexpands
  | ok request => exact ⟨"https://localhost", request, rfl, hrequest, rfl⟩

end Builder

/-- A refusal for want of credentials is a fault of the configuration, and it is the end. -/
theorem interception_of_missing_credentials :
    ∃ client ws₀ t₁ s₁ m ws t' s',
      Ends ((Builder.refusing (.configuration "no credentials")).build Builder.nowhere) 0 Builder.untouched ws₀
        (.ok client) t₁ s₁ ∧ m ∈ client.methods ∧
      Ends (m.execute []) t₁ s₁ ws (.error (.configuration "no credentials")) t' s' ∧
      ∃ us vs t₂ s₂, ws = us ++ vs ∧ sentIn us = [] ∧
        Ends (m.tellFailure t₁ (.configuration "no credentials")) t₂ s₂ vs () t' s' := by
  have hrun : ((Builder.refusing (.configuration "no credentials")).alone Builder.nowhere Builder.untouched).map
      Prod.fst = some (.error (.configuration "no credentials")) := by decide +kernel
  obtain ⟨stop, halone, hstop⟩ := Option.map_eq_some_iff.1 hrun
  obtain ⟨client, ws₀, t₁, s₁, m, ws, hbuild, hm, hends⟩ := Builder.ends_of_alone halone
  rw [hstop] at hends
  obtain ⟨rule, -, hall⟩ :=
    interception (Builder.refusing (.configuration "no credentials")) Builder.nowhere rfl hbuild
  obtain ⟨legs, us, vs, r, t₂, s₂, hws, hmade, hattempts⟩ := hall m hm [] _ _ _ .execute _ _ _ _ _ _ hends
  obtain ⟨o, hhead⟩ := Builder.course_head hmade.course rfl
  obtain ⟨after, hlegs⟩ := List.head?_eq_some_iff.1 hhead
  obtain ⟨front, t₃, s₃, mid, t₄, s₄, back, rfl, hbefore, -, hend⟩ := hattempts [] _ _ _ hlegs
  cases hbefore
  have hendpoint : m.endpoint = Builder.getEndpoint := Builder.endpoint_of_build (by rfl) hbuild hm
  rw [hendpoint] at hend
  obtain ⟨hsent, -, hsettled, hlast⟩ := hend _ (Builder.intercepted_of_refusing _ rule)
  -- there are no breakers, so that the attempt is admitted and its failure returned
  have hreturned : o = .error (.configuration "no credentials") := by
    cases hsettled (fun key hkey => by cases hkey) with
    | returned => rfl
    | recovered _ hfallback => cases hfallback
  obtain ⟨-, htaken⟩ := hlast _ hreturned
  obtain ⟨rfl, -, -, htold⟩ := htaken (.inl rfl)
  rw [List.nil_append, List.append_nil] at hws
  exact ⟨client, ws₀, t₁, s₁, m, ws, _, _, hbuild, hm, hends, mid, vs, t₂, s₂, hws, hsent, htold⟩

/-- A refusal with a time limit is retried, and then the retries are used up; nothing is sent. -/
theorem refused_request_is_retried :
    ((Builder.refusing (.timeout (.ofSeconds 1))).alone Builder.nowhere Builder.untouched).map (fun stop =>
      (stop.1, stop.2.2.sent)) = some (.error (.outOfRetries 2 (.timeout (.ofSeconds 1))), []) := by
  decide +kernel

end ResilientClient
