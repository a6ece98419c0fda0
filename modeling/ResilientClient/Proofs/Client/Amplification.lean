/-
Bounded amplification. Retries and balancing multiply the requests of an invocation: each of at most `1 + R`
rounds is a balanced call of its own, with its own budgets. Whatever happens, no more requests are sent than
these budgets allow (`requests_bounded`), and if every instance is found and every attempt fails with a 5xx
status, all of them are sent.
-/
import ResilientClient.Proofs.Client.Courses
import ResilientClient.Proofs.Client.Invocation

open ResilientClient.Fiber ResilientClient.Pipeline

namespace ResilientClient

variable {ε : Type}

namespace Pipeline

/-! ## Attempts of all rounds -/

section Rounds

variable {c : RetryConfig} {draw : Nat → Binary64} {listeners : List Listener} {method : String}
  {inside : Course} {most : Nat} {legs : List Leg} {r : Outcome}

theorem attempts_roundsLegs_le (hinside : ∀ legs r, inside legs r → attempts legs ≤ most)
    (failed : List (Round c inside)) :
    attempts (roundsLegs draw listeners method failed) ≤ failed.length * most := by
  induction failed using List.reverseRecOn with
  | nil => exact Nat.zero_le _
  | append_singleton failed round ih =>
    have hround := hinside _ _ round.taken
    rw [roundsLegs_append, List.length_append, List.length_singleton, Nat.add_mul, Nat.one_mul]
    simp only [attempts_append, interval, attempts_log, attempts_tell, attempts_rest, attempts_nil]
    omega

theorem Retries.attempts_le (hinside : ∀ legs r, inside legs r → attempts legs ≤ most)
    (h : Retries c draw listeners method inside legs r) : attempts legs ≤ (1 + c.maxRetries) * most := by
  have hrounds : ∀ failed : List (Round c inside), failed.length ≤ c.maxRetries →
      attempts (roundsLegs draw listeners method failed) ≤ c.maxRetries * most :=
    fun failed hleft => Nat.le_trans (attempts_roundsLegs_le hinside failed) (Nat.mul_le_mul_right _ hleft)
  rw [Nat.add_mul, Nat.one_mul]
  cases h with
  | @settled failed legs _ hleft hlegs =>
    have hfailed := hrounds failed hleft
    have hlast := hinside _ _ hlegs
    rw [attempts_append]
    omega
  | @exhausted failed legs e hall hlegs =>
    have hfailed := hrounds failed (Nat.le_of_eq hall)
    have hlast := hinside _ _ hlegs
    simp only [attempts_append, attempts_log, attempts_nil]
    omega
  | @full failed hleft =>
    have hfailed := hrounds failed hleft
    omega

end Rounds

/-! ## Calls that are refused everywhere -/

/-- Every lookup finds an instance, and every attempt comes to a request and fails with a 5xx status. -/
def Leg.Refused (interceptors : List Interceptor) : Leg → Prop
  | .attempt call o =>
    (∃ request, prepare interceptors call = .ok request) ∧ ∃ e, o = .error e ∧ e.HasServerStatus
  | .lookup _ o => ∃ server, o = .ok server
  | .log _ | .tell .. | .rest _ => True

section Refused

variable {config : BalancerConfig} {call : Call} {service : String} {interceptors : List Interceptor}
  {legs : List Leg} {r : Outcome}

theorem attempts_left_of_refused (left : List (Stay config))
    (h : ∀ leg ∈ left.flatMap (Stay.legs call service), leg.Refused interceptors) :
    attempts (left.flatMap (Stay.legs call service)) = (1 + config.retriesOnSame) * left.length := by
  refine attempts_left_of_reached left fun stay hstay => ?_
  have hlast : (Leg.attempt (call.toServer stay.server) (.error stay.last)).Refused interceptors :=
    h _ (List.mem_flatMap.2 ⟨stay, hstay, by simp [Stay.legs]⟩)
  obtain ⟨-, e, he, hstatus⟩ := hlast
  cases he
  exact hstatus.not_connectFailure

theorem Balances.attempts_of_refused (h : Balances config call legs r)
    (hrefused : ∀ leg ∈ legs, leg.Refused interceptors)
    (hbudget : mostAttempts config call.target < twoTo 32) :
    attempts legs = mostAttempts config call.target ∧ ∃ e, r = .error e ∧ e.HasServerStatus := by
  unfold mostAttempts at hbudget ⊢
  cases h with
  | direct htarget =>
    have hone := hrefused _ List.mem_cons_self
    exact ⟨by simp [htarget, Target.isLogical], hone.2⟩
  | @stayed service left last _ htarget hleft hconcludes =>
    rw [List.forall_mem_append] at hrefused
    obtain ⟨hstays, hlast⟩ := hrefused
    have hcount := attempts_left_of_refused left hstays
    cases hconcludes with
    | unresolved =>
      obtain ⟨server, hserver⟩ := hlast _ List.mem_cons_self
      cases hserver
    | @settled visit _ hfinal =>
      obtain ⟨-, e, he, hstatus⟩ := hlast (.attempt (call.toServer visit.server) r) (by simp)
      exact absurd hstatus.isExchangeFault (hfinal e he)
    | @exhausted stay total hall htotal =>
      obtain ⟨-, e, he, hstatus⟩ := hlast (.attempt (call.toServer stay.server) (.error stay.last)) (by simp)
      cases he
      refine ⟨?_, _, rfl, hstatus.exhausted total⟩
      have hagain := stay.again_of_reached hstatus.not_connectFailure
      simp only [attempts_append, attempts_attempt, attempts_log, attempts_nil, Visit.attempts_legs, hcount,
        hall, hagain, htarget, Target.isLogical, if_true, Nat.mul_add, Nat.mul_one]
      omega
  | @full _ _ visit htarget hleft hfull =>
    rw [htarget] at hbudget
    exact absurd hfull (visit.not_full call _ hleft hbudget)

theorem attempts_roundsLegs_of_refused {c : RetryConfig} {draw : Nat → Binary64}
    {listeners : List Listener} {method : String} {inside : Course} {most : Nat}
    (hinside : ∀ legs r, inside legs r → (∀ leg ∈ legs, leg.Refused interceptors) →
      attempts legs = most ∧ ∃ e, r = .error e ∧ e.HasServerStatus) (failed : List (Round c inside))
    (h : ∀ leg ∈ roundsLegs draw listeners method failed, leg.Refused interceptors) :
    attempts (roundsLegs draw listeners method failed) = failed.length * most := by
  induction failed using List.reverseRecOn with
  | nil => simp [roundsLegs]
  | append_singleton failed round ih =>
    rw [roundsLegs_append, List.forall_mem_append, List.forall_mem_append] at h
    obtain ⟨hfailed, hround, -⟩ := h
    rw [roundsLegs_append, List.length_append, List.length_singleton, Nat.add_mul, Nat.one_mul]
    simp only [attempts_append, interval, attempts_log, attempts_tell, attempts_rest, attempts_nil, ih hfailed,
      (hinside _ _ round.taken hround).1, Nat.add_zero]

theorem Retries.attempts_of_refused {c : RetryConfig} {draw : Nat → Binary64} {listeners : List Listener}
    {method : String} {inside : Course} {most : Nat}
    (hinside : ∀ legs r, inside legs r → (∀ leg ∈ legs, leg.Refused interceptors) →
      attempts legs = most ∧ ∃ e, r = .error e ∧ e.HasServerStatus)
    (h : Retries c draw listeners method inside legs r) (hrefused : ∀ leg ∈ legs, leg.Refused interceptors)
    (hbudget : c.maxRetries < counterMax) : attempts legs = (1 + c.maxRetries) * most := by
  cases h with
  | settled _ hlegs hsettles =>
    rw [List.forall_mem_append] at hrefused
    obtain ⟨-, e, he, hstatus⟩ := hinside _ _ hlegs hrefused.2
    exact absurd (hsettles e he) (RetryConfig.not_final_of_hasServerStatus hstatus)
  | @exhausted failed legs e hall hlegs =>
    rw [List.forall_mem_append, List.forall_mem_append] at hrefused
    obtain ⟨hrounds, hlast, -⟩ := hrefused
    have hcount := attempts_roundsLegs_of_refused hinside failed hrounds
    have hmost := (hinside _ _ hlegs hlast).1
    simp only [attempts_append, attempts_log, attempts_nil, hcount, hall, hmost, Nat.add_mul, Nat.one_mul]
    omega
  | full hleft hfull => omega

end Refused

/-! ## Requests of a journey -/

section Requests

variable {exchange : Exchange ε} {resolver : Option (Resolver ε)} {legs : List Leg} {t t' : Instant}
  {s s' : World ε} {ws : List (Write (World ε))}

/-- Without a breaker, an attempt that comes to a request sends it. -/
theorem Journey.sentIn_of_refused (h : Journey resolver (executing exchange) legs t s ws t' s')
    (hrefused : ∀ leg ∈ legs, leg.Refused exchange.interceptors) : (sentIn ws).length = attempts legs := by
  induction h with
  | nil => rfl
  | @cons leg legs t t₁ t' s s₁ s' us vs hleg _ ih =>
    rw [List.forall_mem_cons] at hrefused
    rw [sentIn_append, List.length_append, ih hrefused.2]
    cases leg with
    | attempt call o =>
      obtain ⟨⟨request, hrequest⟩, -⟩ := hrefused.1
      have hone := sentIn_executing hleg
      rw [hrequest] at hone
      rw [hone, attempts_attempt, Nat.add_comm]
      rfl
    | lookup | log | tell | rest => simp [hleg.sentIn_eq_nil rfl]

end Requests

end Pipeline

/-! ## Clients -/

namespace Builder

variable {b : Builder ε} {around : Surroundings ε}

/-- The retries of a call. -/
def retries (b : Builder ε) : Nat := (b.config.retry.map RetryConfig.maxRetries).getD 0

/-- The requests that the budgets of a client allow for an invocation. -/
def mostRequests (b : Builder ε) : Nat :=
  (1 + b.retries) * mostAttempts (b.config.balancer.getD .noFailover) b.target

theorem course_attempts_le {call : Call} (htarget : call.target = b.target) {legs : List Leg} {r : Outcome}
    (h : b.course around call legs r) : attempts legs ≤ b.mostRequests := by
  unfold course at h
  unfold mostRequests retries
  rw [← htarget]
  cases hretry : b.config.retry with
  | none =>
    rw [hretry] at h
    simpa using h.attempts_le
  | some c =>
    rw [hretry] at h
    exact Retries.attempts_le (fun _ _ hbalanced => hbalanced.attempts_le) h

theorem course_attempts_of_refused {call : Call} (htarget : call.target = b.target) {legs : List Leg}
    {r : Outcome} (h : b.course around call legs r) {interceptors : List Interceptor}
    (hrefused : ∀ leg ∈ legs, leg.Refused interceptors) (hbudget : b.mostRequests < twoTo 32) :
    attempts legs = b.mostRequests := by
  unfold mostRequests retries at hbudget ⊢
  rw [← htarget] at hbudget ⊢
  unfold course at h
  have hpos := mostAttempts_pos (b.config.balancer.getD .noFailover) call.target
  cases hretry : b.config.retry with
  | none =>
    rw [hretry] at h hbudget
    simp only [Option.map_none, Option.getD_none, Nat.add_zero, Nat.one_mul] at hbudget ⊢
    exact (h.attempts_of_refused hrefused hbudget).1
  | some c =>
    rw [hretry] at h hbudget
    simp only [Option.map_some, Option.getD_some] at hbudget ⊢
    have hround : 0 < 1 + c.maxRetries := by omega
    have hbalanced : mostAttempts (b.config.balancer.getD .noFailover) call.target < twoTo 32 :=
      Nat.lt_of_le_of_lt (Nat.le_mul_of_pos_left _ hround) hbudget
    have hretries := Nat.lt_of_le_of_lt (Nat.le_mul_of_pos_right (1 + c.maxRetries) hpos) hbudget
    have hcounter : c.maxRetries < counterMax := by
      unfold counterMax
      omega
    exact h.attempts_of_refused
      (fun _ _ hcourse hall => hcourse.attempts_of_refused hall hbalanced) hrefused hcounter

theorem backing_of_no_registry (h : b.registry? = none) (exchange : Exchange ε) (method : String) :
    b.backing exchange method = executing exchange := by
  unfold backing
  rw [h]

theorem sentIn_backing_le {exchange : Exchange ε} {method : String} {call : Call} {t t' : Instant}
    {s s' : World ε} {ws : List (Write (World ε))} {o : Outcome}
    (h : Ends (b.backing exchange method call) t s ws o t' s') : (sentIn ws).length ≤ 1 := by
  cases hregistry : b.registry? with
  | none =>
    rw [backing_of_no_registry hregistry] at h
    exact sentIn_executing_le h
  | some registry =>
    unfold backing at h
    rw [hregistry] at h
    exact sentIn_guarding h

end Builder

/-- The retry policy of the client is that of its configuration. However far an invocation has come, it has
sent no more requests than one and the retries times those of a balanced call: one for a URL, and
`(1 + retriesOnSame) * (1 + retriesOnNext)` for a service. Without breakers, and as long as the counters have
room for so many, it has sent all of them when it ends if every lookup on its way found an instance and every
attempt came to a request and failed with a 5xx status. -/
theorem requests_bounded (b : Builder ε) (around : Surroundings ε) (hpolicy : b.retryPolicy = none)
    {client : Client ε} {t₀ t₁ : Instant} {s₀ s₁ : World ε} {ws₀ : List (Write (World ε))}
    (hbuild : Ends (b.build around) t₀ s₀ ws₀ (.ok client) t₁ s₁) :
    let retries := (b.config.retry.map RetryConfig.maxRetries).getD 0
    let balancer := b.config.balancer.getD .noFailover
    let most := (1 + retries) *
      if b.target.isLogical then (1 + balancer.retriesOnSame) * (1 + balancer.retriesOnNext) else 1
    ∃ rule, HeaderRule.userAgent b.config.userAgent = .ok rule ∧
      ∀ m ∈ client.methods, ∀ (args : List Argument) (α : Type) (x : Stage ε α) (failed : Error → α),
        m.Invokes args x failed →
          (∀ t s ws y t' s', Goes x t s ws y t' s' → (sentIn ws).length ≤ most) ∧
          (b.registry? = none → most < twoTo 32 → ∀ t s ws a t' s', Ends x t s ws a t' s' →
            ∃ us vs r t₂ s₂, ws = us ++ vs ∧ (∃ legs, b.MadeOf around rule m args legs t s us r t₂ s₂) ∧
              ∀ legs, b.MadeOf around rule m args legs t s us r t₂ s₂ →
                (∀ leg ∈ legs, leg.Refused (b.exchange around rule).interceptors) →
                (sentIn ws).length = most) := by
  intro retries balancer most
  obtain ⟨rule, hrule, hmethods⟩ := Builder.madeOf_of_dispatch hpolicy hbuild
  refine ⟨rule, hrule, fun m hm args α x failed hinvokes => ⟨?_, ?_⟩⟩
  · intro t s ws y t' s' hgoes
    refine sentIn_le_of_goes (fun ws a t' s' hends => ?_) hgoes
    obtain ⟨us, r, t₂, s₂, vs, rfl, hdispatch, hmute, -⟩ := hinvokes.dispatched hends
    obtain ⟨legs, hmade⟩ := hmethods m hm args t s us r t₂ s₂ hdispatch
    rw [sentIn_append, hmute, List.append_nil]
    calc (sentIn us).length ≤ attempts legs :=
          hmade.journey.sentIn_le fun _ _ _ _ _ _ _ => Builder.sentIn_backing_le
      _ ≤ most := Builder.course_attempts_le rfl hmade.course
  · intro hregistry hbudget t s ws a t' s' hends
    obtain ⟨us, r, t₂, s₂, vs, rfl, hdispatch, hmute, -⟩ := hinvokes.dispatched hends
    refine ⟨us, vs, r, t₂, s₂, rfl, hmethods m hm args t s us r t₂ s₂ hdispatch, ?_⟩
    rintro legs ⟨hjourney, hcourse⟩ hrefused
    rw [Builder.backing_of_no_registry hregistry] at hjourney
    rw [sentIn_append, hmute, List.append_nil]
    calc (sentIn us).length = attempts legs := hjourney.sentIn_of_refused hrefused
      _ = most := Builder.course_attempts_of_refused rfl hcourse hrefused hbudget

/-! ## A service that is overloaded -/

/-- A 503 as the answer, and one retry: all of the eight requests are sent that the budgets allow. -/
theorem requests_bounded_overloaded :
    let b := Builder.answering ⟨⟨503⟩, .empty, [], none⟩ 1
    let overloaded : Error := .status "Api#get()" ⟨503⟩ "" none none
    ∃ client ws₀ t₁ s₁ m ws t' s', Ends (b.build Builder.nowhere) 0 Builder.untouched ws₀ (.ok client) t₁ s₁ ∧
      m ∈ client.methods ∧ Ends (m.execute []) t₁ s₁ ws (.error (.outOfRetries 2 overloaded)) t' s' ∧
      s'.sent.length = 8 ∧ (sentIn ws).length = 8 ∧
      ∀ ws y t' s', Goes (m.execute []) t₁ s₁ ws y t' s' → (sentIn ws).length ≤ 8 := by
  intro b overloaded
  have hrun : (b.alone Builder.nowhere Builder.untouched).map (fun p => (p.1, p.2.2.sent.length)) =
      some ((.error (.outOfRetries 2 overloaded) : Outcome), 8) := by decide +kernel
  obtain ⟨⟨o, t', s'⟩, halone, hstop⟩ := Option.map_eq_some_iff.1 hrun
  obtain ⟨ho, hsent⟩ := Prod.mk.inj hstop
  obtain rfl : o = .error (.outOfRetries 2 overloaded) := ho
  obtain ⟨client, ws₀, t₁, s₁, m, ws, hbuild, hm, hends⟩ := Builder.ends_of_alone halone
  obtain ⟨rule, -, hall⟩ := requests_bounded b Builder.nowhere rfl hbuild
  obtain ⟨hle, hexact⟩ := hall m hm [] _ _ _ .execute
  obtain ⟨us, vs, r, t₂, s₂, -, ⟨legs, hmade⟩, hrefused⟩ := hexact rfl (by decide) _ _ _ _ _ _ hends
  refine ⟨client, ws₀, t₁, s₁, m, ws, t', s', hbuild, hm, hends, hsent, hrefused legs hmade ?_,
    fun ws y t' s' => hle t₁ s₁ ws y t' s'⟩
  intro leg hmem
  cases leg with
  | attempt call o =>
    obtain ⟨hrequest, rfl⟩ :=
      Builder.outcome_of_answering hbuild hm hmade (by decide) "" (by rfl) hmem
    exact ⟨hrequest, _, rfl, ⟨503⟩, rfl, by decide⟩
  | lookup service found => exact ⟨Builder.soleServer, Builder.lookup_of_answering hmade hmem⟩
  | log | tell | rest => trivial

end ResilientClient
