/-
The counters of attempts. Retries and balancing count their attempts in 32 bits, and a call that comes to one
attempt more than can be counted ends with a failure of its own. Until then a policy is asked about each failure
under the true number of its attempt (`Counts`), and a call that is given up says how many attempts it took
(`Tallied`). The counters have room for every call exactly if the budgets leave it: as many attempts as there
can be, one and the retries of a configuration, or the product of the two budgets of a balancer, must be a
number of 32 bits (`counters_suffice_iff`).
-/
import ResilientClient.Proofs.Pipeline.Flattening
import ResilientClient.Proofs.Pipeline.Retries
import ResilientClient.Proofs.Pipeline.Stays

open ResilientClient.Fiber

namespace ResilientClient.Pipeline

variable {ε : Type}

/-! ## What the policy is asked -/

/-- What the attempts on a journey failed with, in order. -/
def failuresOf (legs : List Leg) : List Error :=
  (outcomesOf legs).filterMap fun
    | .error e => some e
    | .ok _ => none

/-- The attempts of a call from the one of that number on, and what the policy is asked meanwhile: the failure of
an attempt, and a number. What it says decides how the call goes on. -/
inductive Counts (policy : RetryPolicy) (listeners : List Listener) (call : Call) :
    Nat → List (Error × Nat) → Course
  | answered {number : Nat} {response : Response} : number ≤ counterMax →
      Counts policy listeners call number [] [.attempt call (.ok response)] (.ok response)
  | settled {number : Nat} {e : Error} : number ≤ counterMax → policy e number = .notRetryable →
      Counts policy listeners call number [(e, number)] [.attempt call (.error e)] (.error e)
  | exhausted {number : Nat} {e : Error} : number ≤ counterMax → policy e number = .exhausted →
      Counts policy listeners call number [(e, number)]
        [.attempt call (.error e), .log (exhaustedLine call.method number e)] (.error (.exhausted number e))
  | again {number : Nat} {e : Error} {delay : Duration} {asked : List (Error × Nat)} {legs : List Leg}
      {r : Outcome} : number ≤ counterMax → policy e number = .retry delay →
      Counts policy listeners call (number + 1) asked legs r →
      Counts policy listeners call number ((e, number) :: asked)
        (.attempt call (.error e) :: .log (retryLine call.method number e delay) ::
          .tell listeners (.retrying call.method number e delay) :: .rest delay :: legs) r
  /-- The counter has no room for the number. -/
  | overflow {number : Nat} : number = counterMax + 1 →
      Counts policy listeners call number [] [] (.error .attemptOverflow)

section Questions

variable {policy : RetryPolicy} {listeners : List Listener} {call : Call} {number : Nat}
  {asked : List (Error × Nat)} {legs : List Leg} {r : Outcome} {c : RetryConfig} {draw : Nat → Binary64}

/-- The policy is asked about all failures, in order, and the numbers are those of the attempts. -/
theorem Counts.asked_eq (h : Counts policy listeners call number asked legs r) :
    asked = (failuresOf legs).zipIdx number := by
  induction h with
  | again _ _ _ ih => simpa [failuresOf] using ih
  | _ => rfl

/-- A policy with a budget retries no attempt whose number is above it. -/
theorem number_le_of_retry {e : Error} {delay : Duration} (h : c.policy draw e number = .retry delay) :
    number ≤ c.maxRetries := by
  rcases c.policy_cases draw e number with ⟨-, hpolicy⟩ | ⟨-, -, hpolicy⟩ | ⟨-, hle, -⟩
  · cases hpolicy.symm.trans h
  · cases hpolicy.symm.trans h
  · exact hle

/-- There are no more attempts than the budget allows, and no more than can be counted. -/
theorem Counts.attempts_le (h : Counts (c.policy draw) listeners call number asked legs r)
    (hbudget : number ≤ c.maxRetries + 1) (hcounter : number ≤ counterMax + 1) :
    number + attempts legs ≤ min (c.maxRetries + 2) (counterMax + 1) := by
  induction h with
  | again hroom hretry _ ih =>
    have hle := number_le_of_retry hretry
    have hmore := ih (by omega) (by omega)
    simp only [attempts_attempt, attempts_log, attempts_tell, attempts_rest]
    omega
  | _ =>
    simp only [attempts_attempt, attempts_log, attempts_nil]
    omega

end Questions

/-- By induction on the attempts that the counter has room for: an attempt ends the call, or it is followed by
those from the next number on. -/
theorem attemptsFrom_counts (policy : RetryPolicy) (listeners : List Listener) (inner : Service ε) (call : Call)
    {t' : Instant} {s' : World ε} {r : Outcome} (room : Nat) :
    ∀ (number : Nat) {t : Instant} {s : World ε} {ws : List (Write (World ε))}, room + number = counterMax + 1 →
      Ends (attemptsFrom policy listeners (inner call) call.method room number) t s ws r t' s' →
      ∃ asked legs, Journey none inner legs t s ws t' s' ∧ Counts policy listeners call number asked legs r := by
  induction room with
  | zero =>
    intro number t s ws hroom h
    obtain ⟨rfl, rfl, rfl, rfl⟩ := ends_done.1 h
    exact ⟨[], [], .nil, .overflow (by omega)⟩
  | succ room ih =>
    intro number t s ws hroom h
    have hnumber : number ≤ counterMax := by omega
    obtain ⟨us, o, t₁, s₁, vs, rfl, hattempt, hrest⟩ := (ends_andThen _ _).1 h
    cases o with
    | ok response =>
      obtain ⟨rfl, rfl, rfl, rfl⟩ := ends_done.1 hrest
      exact ⟨_, _, .attempt hattempt .nil, .answered hnumber⟩
    | error e =>
      dsimp only at hrest
      split at hrest
      · rename_i hpolicy
        obtain ⟨rfl, rfl, rfl, rfl⟩ := ends_done.1 hrest
        exact ⟨_, _, .attempt hattempt .nil, .settled hnumber hpolicy⟩
      · rename_i hpolicy
        obtain ⟨us', _, t₂, s₂, vs', rfl, hlog, hend⟩ := (ends_andThen _ _).1 hrest
        obtain ⟨rfl, rfl, rfl, rfl⟩ := ends_done.1 hend
        exact ⟨_, _, .attempt hattempt (.log hlog .nil), .exhausted hnumber hpolicy⟩
      · rename_i delay hpolicy
        obtain ⟨us₁, _, t₂, s₂, vs₁, rfl, hlog, hrest⟩ := (ends_andThen _ _).1 hrest
        obtain ⟨us₂, _, t₃, s₃, vs₂, rfl, htell, hrest⟩ := (ends_andThen _ _).1 hrest
        obtain ⟨us₃, _, t₄, s₄, vs₃, rfl, hsleep, hrest⟩ := (ends_andThen _ _).1 hrest
        obtain ⟨asked, legs, hjourney, hcounts⟩ := ih (number + 1) (by omega) hrest
        exact ⟨_, _, .attempt hattempt (.log hlog (.tell htell (.rest hsleep hjourney))),
          .again hnumber hpolicy hcounts⟩

/-! ## What a call ends with -/

/-- The ends of a call that makes at most so many attempts and counts them. -/
inductive Tallied (most : Nat) : Course
  /-- With the outcome of its last attempt. -/
  | settled {legs : List Leg} {call : Call} {o : Outcome} : Tallied most (legs ++ [.attempt call o]) o
  /-- With the failure to find an instance. -/
  | unresolved {legs : List Leg} {service : String} {e : Error} :
      Tallied most (legs ++ [.lookup service (.error e)]) (.error e)
  /-- Nowhere can an instance be looked up. -/
  | unsought {call : Call} {service : String} : Tallied most [] (.error (noResolver call service))
  /-- With the failure of its last attempt, and the number of all attempts. -/
  | exhausted {legs : List Leg} {call : Call} {e : Error} {line : TraceLine} :
      Tallied most (legs ++ [.attempt call (.error e), .log line]) (.error (.exhausted (attempts legs + 1) e))
  /-- There are as many attempts as can be counted, and there may be more. -/
  | overflow {legs : List Leg} : attempts legs = counterMax → counterMax < most →
      Tallied most legs (.error .attemptOverflow)

section Tallies

variable {c : RetryConfig} {draw : Nat → Binary64} {listeners : List Listener} {call : Call} {number : Nat}
  {asked : List (Error × Nat)} {legs : List Leg} {r : Outcome} {config : BalancerConfig}

theorem Counts.tallied (h : Counts (c.policy draw) listeners call number asked legs r) :
    ∀ before, number = attempts before + 1 → number ≤ c.maxRetries + 1 →
      Tallied (c.maxRetries + 1) (before ++ legs) r := by
  induction h with
  | answered => exact fun _ _ _ => .settled
  | settled => exact fun _ _ _ => .settled
  | exhausted =>
    rintro before rfl -
    exact .exhausted
  | @again number e delay _ _ _ _ hretry _ ih =>
    intro before hnumber _
    have hle := number_le_of_retry hretry
    let round : List Leg := [.attempt call (.error e), .log (retryLine call.method number e delay),
      .tell listeners (.retrying call.method number e delay), .rest delay]
    have hmore := ih (before ++ round) (by simp [round, hnumber]) (by omega)
    simpa [round] using hmore
  | overflow hfull =>
    intro before hnumber hle
    rw [List.append_nil]
    exact .overflow (by omega) (by omega)

theorem Balances.tallied (h : Balances config call legs r) :
    Tallied ((1 + config.retriesOnSame) * (1 + config.retriesOnNext)) legs r := by
  cases h with
  | direct =>
    show Tallied _ ([] ++ [.attempt call r]) r
    exact .settled
  | @stayed service left last _ _ _ hconcludes =>
    cases hconcludes with
    | unresolved => exact .unresolved
    | settled =>
      rw [← List.append_assoc]
      exact .settled
    | @exhausted stay total _ htotal =>
      have hcount :
          total = attempts (left.flatMap (Stay.legs call service) ++ stay.toVisit.legs call service) + 1 := by
        rw [attempts_append, Visit.attempts_legs]
        exact htotal
      rw [← List.append_assoc, hcount]
      exact .exhausted
  | @full service left visit _ hleft hfull =>
    have hle := attempts_stays_le call service hleft (visit.attempts_lt call service)
    rw [Visit.attempts_legs] at hle
    exact .overflow (by rw [attempts_append, Visit.attempts_legs]; exact hfull) (by omega)

/-- A wrapper of exhausted retries that no attempt and no lookup failed with holds the number of all attempts. -/
theorem Tallied.attempts_eq {most count : Nat} {last : Error}
    (h : Tallied most legs (.error (.outOfRetries count last)))
    (hattempts : ∀ call, .attempt call (.error (.outOfRetries count last)) ∉ legs)
    (hlookups : ∀ service, .lookup service (.error (.outOfRetries count last)) ∉ legs) : attempts legs = count := by
  generalize hr : (Except.error (Error.outOfRetries count last) : Outcome) = r at h
  cases h with
  | @settled legs call =>
    subst hr
    exact absurd (by simp) (hattempts call)
  | @unresolved legs service =>
    cases hr
    exact absurd (by simp) (hlookups service)
  | unsought => cases hr
  | exhausted =>
    rw [Error.exhausted_eq] at hr
    obtain ⟨hcount, -⟩ := Error.outOfRetries.inj (Except.error.inj hr)
    simpa using hcount.symm
  | overflow => cases hr

end Tallies

/-! ## Counted calls -/

theorem mostAttempts_le (config : BalancerConfig) (target : Target) :
    mostAttempts config target ≤ (1 + config.retriesOnSame) * (1 + config.retriesOnNext) := by
  unfold mostAttempts
  split
  · exact Nat.le_refl _
  · exact Nat.mul_pos (by omega) (by omega)

/-- A call that is retried counts its attempts. -/
theorem retrying_tallied (c : RetryConfig) (draw : Nat → Binary64) (listeners : List Listener)
    (inner : Service ε) (call : Call) {t t' : Instant} {s s' : World ε} {ws : List (Write (World ε))} {r : Outcome}
    (h : Ends (retrying (c.policy draw) listeners inner call) t s ws r t' s') :
    ∃ asked legs, Journey none inner legs t s ws t' s' ∧
      Counts (c.policy draw) listeners call 1 asked legs r ∧ asked = (failuresOf legs).zipIdx 1 ∧
      Tallied (c.maxRetries + 1) legs r ∧ attempts legs ≤ min (c.maxRetries + 1) counterMax := by
  obtain ⟨asked, legs, hjourney, hcounts⟩ := attemptsFrom_counts _ _ _ _ counterMax 1 rfl h
  have hle := hcounts.attempts_le (by omega) (by omega)
  exact ⟨asked, legs, hjourney, hcounts, hcounts.asked_eq, hcounts.tallied [] rfl (by omega), by omega⟩

/-- A call that is balanced counts its attempts. -/
theorem balancing_tallied (config : BalancerConfig) (resolver : Option (Resolver ε)) (inner : Service ε)
    (call : Call) : Takes resolver inner (balancing config resolver inner call) fun legs r =>
      Tallied ((1 + config.retriesOnSame) * (1 + config.retriesOnNext)) legs r ∧
      attempts legs ≤ min ((1 + config.retriesOnSame) * (1 + config.retriesOnNext)) counterMax := by
  intro t s ws r t' s' h
  cases resolver with
  | some look =>
    obtain ⟨legs, hjourney, hcourse, hcounter⟩ := balancing_takes_counted config look inner call t s ws r t' s' h
    have hbudget := hcourse.attempts_le.trans (mostAttempts_le config call.target)
    exact ⟨legs, hjourney, hcourse.tallied, Nat.le_min.2 ⟨hbudget, hcounter⟩⟩
  | none =>
    unfold balancing at h
    split at h
    · rename_i base htarget
      obtain ⟨legs, hjourney, rfl⟩ := takes_once none inner call t s ws r t' s' h
      have hcourse : Balances config call [.attempt call r] r := .direct htarget
      have hbudget := hcourse.attempts_le.trans (mostAttempts_le config call.target)
      exact ⟨_, hjourney, hcourse.tallied, Nat.le_min.2 ⟨hbudget, by rw [attempts_attempt, attempts_nil]; decide⟩⟩
    · obtain ⟨rfl, rfl, rfl, rfl⟩ := ends_done.1 h
      exact ⟨[], .nil, .unsought, Nat.zero_le _⟩

/-! ## Counters that suffice -/

/-- No path ends because there are more attempts than can be counted. -/
def KeepsCount {σ α : Type} (work : Fiber σ (Except Error α)) : Prop :=
  ∀ t s ws t' s', ¬ Ends work t s ws (.error .attemptOverflow) t' s'

section Sufficient

variable {resolver : Option (Resolver ε)} {inner : Service ε} {work : Stage ε Outcome} {most : Nat}

/-- If all attempts that a call may make can be counted, then it keeps count as its attempts and lookups do. -/
theorem keepsCount_of_tallied (h : Takes resolver inner work (Tallied most)) (hmost : most ≤ counterMax)
    (hresolver : ∀ look ∈ resolver, ∀ service, KeepsCount (look service))
    (hinner : ∀ call, KeepsCount (inner call)) : KeepsCount work := by
  intro t s ws t' s' hends
  obtain ⟨legs, hjourney, htallied⟩ := h t s ws _ t' s' hends
  generalize hr : (Except.error Error.attemptOverflow : Outcome) = r at htallied
  cases htallied with
  | @settled legs call =>
    subst hr
    obtain ⟨_, _, _, _, _, hattempt⟩ := hjourney.made_of_mem (List.mem_append_right _ List.mem_cons_self)
    exact hinner call _ _ _ _ _ hattempt
  | @unresolved legs service e =>
    cases hr
    obtain ⟨_, _, _, _, _, hlookup⟩ := hjourney.made_of_mem (List.mem_append_right _ List.mem_cons_self)
    obtain ⟨look, _, _, _, hlook, hresolve⟩ := hlookup.resolved
    exact hresolver look hlook service _ _ _ _ _ hresolve
  | unsought => cases hr
  | @exhausted legs call e =>
    rw [Error.exhausted_eq] at hr
    cases hr
  | overflow _ hlt => omega

end Sufficient

/-! ## Services that do not answer -/

/-- Every lookup finds an instance, and every attempt fails in such a way that the instance is tried again. -/
def Leg.Unanswered : Leg → Prop
  | .attempt _ o => ∃ e, o = .error e ∧ e.IsExchangeFault ∧ ¬ e.IsConnectFailure
  | .lookup _ o => ∃ server, o = .ok server
  | .log _ | .tell .. | .rest _ => True

section Unanswered

variable {c : RetryConfig} {draw : Nat → Binary64} {listeners : List Listener} {call : Call} {number : Nat}
  {asked : List (Error × Nat)} {legs : List Leg} {r : Outcome} {config : BalancerConfig} {service : String}

/-- If more retries are allowed than can be counted, then the counter overflows before they are used up. -/
theorem Counts.overflow_of_unanswered (h : Counts (c.policy draw) listeners call number asked legs r)
    (hlegs : ∀ leg ∈ legs, leg.Unanswered) (hbudget : counterMax ≤ c.maxRetries) :
    r = .error .attemptOverflow := by
  induction h with
  | answered =>
    obtain ⟨e, he, -⟩ := hlegs _ List.mem_cons_self
    cases he
  | @settled number e _ hpolicy =>
    obtain ⟨e', he, hfault, -⟩ := hlegs _ List.mem_cons_self
    cases he
    rcases c.policy_cases draw e number with ⟨hfinal, -⟩ | ⟨-, -, h⟩ | ⟨-, -, h⟩
    · exact absurd hfault hfinal.not_exchangeFault
    · cases h.symm.trans hpolicy
    · cases h.symm.trans hpolicy
  | @exhausted number e hroom hpolicy =>
    rcases c.policy_cases draw e number with ⟨-, h⟩ | ⟨-, hspent, -⟩ | ⟨-, -, h⟩
    · cases h.symm.trans hpolicy
    · omega
    · cases h.symm.trans hpolicy
  | again _ _ _ ih => exact ih fun leg hleg => hlegs leg (by simp [hleg])
  | overflow => rfl

/-- If the budgets of a balancer allow more attempts than can be counted, then the counter overflows before they
are used up. -/
theorem Balances.overflow_of_unanswered (h : Balances config call legs r) (htarget : call.target = .service service)
    (hlegs : ∀ leg ∈ legs, leg.Unanswered) (hcounted : attempts legs ≤ counterMax)
    (hbudget : counterMax < (1 + config.retriesOnSame) * (1 + config.retriesOnNext)) :
    r = .error .attemptOverflow := by
  cases h with
  | direct hurl => cases htarget.symm.trans hurl
  | @stayed service left last _ _ _ hconcludes =>
    rw [List.forall_mem_append] at hlegs
    cases hconcludes with
    | unresolved =>
      obtain ⟨server, hserver⟩ := hlegs.2 _ List.mem_cons_self
      cases hserver
    | @settled visit _ hfinal =>
      obtain ⟨e, he, hfault, -⟩ := hlegs.2 (.attempt (call.toServer visit.server) r) (by simp)
      exact absurd hfault (hfinal e he)
    | @exhausted stay total hall _ =>
      have hreached : ∀ stay ∈ left, ¬ stay.last.IsConnectFailure := by
        intro stay hstay
        obtain ⟨e, he, -, hreached⟩ := hlegs.1 (.attempt (call.toServer stay.server) (.error stay.last))
          (List.mem_flatMap.2 ⟨stay, hstay, by simp [Stay.legs]⟩)
        cases he
        exact hreached
      obtain ⟨e, he, -, hlast⟩ := hlegs.2 (.attempt (call.toServer stay.server) (.error stay.last)) (by simp)
      cases he
      -- every instance was tried as often as possible, which makes more attempts than there can be
      rw [attempts_append, attempts_left_of_reached left hreached, hall] at hcounted
      simp only [attempts_append, attempts_attempt, attempts_log, attempts_nil, Visit.attempts_legs,
        stay.again_of_reached hlast] at hcounted
      rw [Nat.mul_add, Nat.mul_one] at hbudget
      omega
  | full => rfl

end Unanswered

/-- No call is answered in time. -/
def unanswered : Service ε := fun _ => .done (.error Recovering.late)

/-- Every lookup finds the same instance. -/
def soleInstance : Resolver ε := fun _ => .done (.ok TwoInstances.first)

section Instances

variable {legs : List Leg} {t t' : Instant} {s s' : World ε} {ws : List (Write (World ε))} {r : Outcome}

theorem keepsCount_unanswered (call : Call) : KeepsCount (unanswered call : Stage ε Outcome) := by
  intro t s ws t' s' h
  obtain ⟨-, h, -, -⟩ := ends_done.1 h
  cases h

theorem keepsCount_soleInstance (service : String) :
    KeepsCount (soleInstance service : Fiber (Outside ε) (Except Error Server)) := by
  intro t s ws t' s' h
  obtain ⟨-, h, -, -⟩ := ends_done.1 h
  cases h

/-- On the way to such a service nothing is answered. -/
theorem unanswered_of_journey {resolver : Option (Resolver ε)} (hresolver : ∀ look ∈ resolver, look = soleInstance)
    (h : Journey resolver unanswered legs t s ws t' s') : ∀ leg ∈ legs, leg.Unanswered := by
  intro leg hleg
  obtain ⟨_, _, _, _, _, hmade⟩ := h.made_of_mem hleg
  cases leg with
  | attempt call o =>
    obtain ⟨-, rfl, -, -⟩ := ends_done.1 hmade
    refine ⟨_, rfl, .inr (.inr (.inl ⟨_, rfl⟩)), ?_⟩
    rintro ⟨cause, hcause⟩
    cases hcause
  | lookup service found =>
    obtain ⟨look, _, _, _, hlook, hresolve⟩ := hmade.resolved
    obtain rfl := hresolver look hlook
    obtain ⟨-, rfl, -, -⟩ := ends_done.1 hresolve
    exact ⟨_, rfl⟩
  | log | tell | rest => trivial

theorem failuresOf_unanswered {resolver : Option (Resolver ε)} (h : Journey resolver unanswered legs t s ws t' s') :
    failuresOf legs = List.replicate (attempts legs) Recovering.late := by
  induction h with
  | nil => rfl
  | @cons leg legs _ _ _ _ _ _ _ _ hleg _ ih =>
    cases leg with
    | attempt call o =>
      obtain ⟨-, rfl, -, -⟩ := ends_done.1 hleg
      simpa [failuresOf, List.replicate_succ] using ih
    | lookup | log | tell | rest => simpa [failuresOf] using ih

theorem overflow_of_retrying {c : RetryConfig} {draw : Nat → Binary64} {listeners : List Listener} {call : Call}
    (hbudget : counterMax ≤ c.maxRetries)
    (h : Ends (retrying (c.policy draw) listeners unanswered call) t s ws r t' s') :
    r = .error .attemptOverflow := by
  obtain ⟨asked, legs, hjourney, hcounts, -⟩ := retrying_tallied c draw listeners unanswered call h
  exact hcounts.overflow_of_unanswered (unanswered_of_journey (by simp) hjourney) hbudget

theorem overflow_of_balancing {config : BalancerConfig} {call : Call} {service : String}
    (htarget : call.target = .service service)
    (hbudget : counterMax < (1 + config.retriesOnSame) * (1 + config.retriesOnNext))
    (h : Ends (balancing config (some soleInstance) unanswered call) t s ws r t' s') :
    r = .error .attemptOverflow := by
  obtain ⟨legs, hjourney, hcourse, hcounted⟩ :=
    balancing_takes_counted config soleInstance unanswered call t s ws r t' s' h
  exact hcourse.overflow_of_unanswered htarget (unanswered_of_journey (by simp) hjourney) hcounted hbudget

end Instances

/-! ## The exact condition -/

/-- A call that is retried ends. It makes at most one attempt and the retries of the configuration, and never more
than can be counted; the policy is asked about the failures in order, each under the number of its attempt; and if
the retries are given up, the wrapper holds the number of all attempts. The same is true of a balanced call, with
the product of the budgets as the most attempts. The counters overflow in no call, unless the service inside does
so itself, exactly if the most attempts are no more than can be counted. -/
theorem counters_suffice_iff (c : RetryConfig) (draw : Nat → Binary64) (listeners : List Listener)
    (config : BalancerConfig) :
    (∀ (ε : Type) (inner : Service ε) (call : Call),
      (∀ t s, ∃ ws r t' s', Ends (retrying (c.policy draw) listeners inner call) t s ws r t' s') ∧
      ∀ t s ws r t' s', Ends (retrying (c.policy draw) listeners inner call) t s ws r t' s' →
        ∃ asked legs, Journey none inner legs t s ws t' s' ∧
          Counts (c.policy draw) listeners call 1 asked legs r ∧ asked = (failuresOf legs).zipIdx 1 ∧
          Tallied (c.maxRetries + 1) legs r ∧ attempts legs ≤ min (c.maxRetries + 1) counterMax) ∧
    (∀ (ε : Type) (resolver : Option (Resolver ε)) (inner : Service ε) (call : Call),
      let most := (1 + config.retriesOnSame) * (1 + config.retriesOnNext)
      (∀ t s, ∃ ws r t' s', Ends (balancing config resolver inner call) t s ws r t' s') ∧
      ∀ t s ws r t' s', Ends (balancing config resolver inner call) t s ws r t' s' →
        ∃ legs, Journey resolver inner legs t s ws t' s' ∧ Tallied most legs r ∧
          attempts legs ≤ min most counterMax) ∧
    ((∀ (ε : Type) (inner : Service ε), (∀ call, KeepsCount (inner call)) →
        ∀ call, KeepsCount (retrying (c.policy draw) listeners inner call)) ↔
      c.maxRetries + 1 ≤ counterMax) ∧
    ((∀ (ε : Type) (resolver : Option (Resolver ε)) (inner : Service ε),
        (∀ look ∈ resolver, ∀ service, KeepsCount (look service)) → (∀ call, KeepsCount (inner call)) →
        ∀ call, KeepsCount (balancing config resolver inner call)) ↔
      (1 + config.retriesOnSame) * (1 + config.retriesOnNext) ≤ counterMax) := by
  refine ⟨fun ε inner call => ⟨fun t s => ?_, fun t s ws r t' s' h => retrying_tallied c draw listeners inner call h⟩,
    fun ε resolver inner call => ⟨fun t s => ?_, balancing_tallied config resolver inner call⟩,
    ⟨fun hkeeps => ?_, fun hbudget ε inner hinner call => ?_⟩,
    ⟨fun hkeeps => ?_, fun hbudget ε resolver inner hresolver hinner call => ?_⟩⟩
  · obtain ⟨ws, hends⟩ := ends_run (retrying (c.policy draw) listeners inner call) t s
    exact ⟨ws, _, _, _, hends⟩
  · obtain ⟨ws, hends⟩ := ends_run (balancing config resolver inner call) t s
    exact ⟨ws, _, _, _, hends⟩
  · by_contra hover
    let work : Stage Nat Outcome := retrying (c.policy draw) listeners unanswered TwoInstances.call
    obtain ⟨ws, hends⟩ := ends_run work 0 TwoInstances.world
    rw [overflow_of_retrying (by omega) hends] at hends
    exact hkeeps Nat unanswered keepsCount_unanswered _ _ _ _ _ _ hends
  · have htakes : Takes none inner (retrying (c.policy draw) listeners inner call) (Tallied (c.maxRetries + 1)) := by
      intro t s ws r t' s' h
      obtain ⟨asked, legs, hjourney, -, -, htallied, -⟩ := retrying_tallied c draw listeners inner call h
      exact ⟨legs, hjourney, htallied⟩
    exact keepsCount_of_tallied htakes hbudget (by simp) hinner
  · by_contra hover
    let work : Stage Nat Outcome := balancing config (some soleInstance) unanswered TwoInstances.call
    obtain ⟨ws, hends⟩ := ends_run work 0 TwoInstances.world
    rw [overflow_of_balancing rfl (by omega) hends] at hends
    refine hkeeps Nat (some soleInstance) unanswered ?_ keepsCount_unanswered _ _ _ _ _ _ hends
    rintro look ⟨⟩
    exact keepsCount_soleInstance
  · refine keepsCount_of_tallied (fun t s ws r t' s' h => ?_) hbudget hresolver hinner
    obtain ⟨legs, hjourney, htallied, -⟩ := balancing_tallied config resolver inner call t s ws r t' s' h
    exact ⟨legs, hjourney, htallied⟩

/-- After two retries the wrapper says that there were three attempts, and the policy was asked about each. -/
theorem counters_suffice_for_two_retries :
    let policy := Recovering.config.policy fun _ => .ofNat 0
    let call := TwoInstances.call
    let outcome : Outcome := .error (.outOfRetries 3 Recovering.late)
    ∃ ws t' s' legs, Ends (retrying policy [] unanswered call) 0 TwoInstances.world ws outcome t' s' ∧
      Journey none unanswered legs 0 TwoInstances.world ws t' s' ∧
      Counts policy [] call 1 [(Recovering.late, 1), (Recovering.late, 2), (Recovering.late, 3)] legs outcome ∧
      attempts legs = 3 := by
  intro policy call outcome
  have hrun : ((retrying policy [] unanswered call).run 0 TwoInstances.world).1 = outcome := by decide +kernel
  obtain ⟨ws, hends⟩ := ends_run (retrying policy [] unanswered call) 0 TwoInstances.world
  rw [hrun] at hends
  obtain ⟨asked, legs, hjourney, hcounts, rfl, htallied, -⟩ :=
    ((counters_suffice_iff Recovering.config (fun _ => .ofNat 0) [] .default).1 Nat unanswered call).2
      _ _ _ _ _ _ hends
  have hthree : attempts legs = 3 := by
    refine htallied.attempts_eq (fun call' hmem => ?_) fun service hmem => ?_
    · obtain ⟨_, _, _, _, _, hattempt⟩ := hjourney.made_of_mem hmem
      obtain ⟨-, h, -, -⟩ := ends_done.1 hattempt
      cases h
    · obtain ⟨_, _, _, _, _, hlookup⟩ := hjourney.made_of_mem hmem
      obtain ⟨look, _, _, _, hlook, -⟩ := hlookup.resolved
      cases hlook
  rw [failuresOf_unanswered hjourney, hthree] at hcounts
  exact ⟨ws, _, _, legs, hends, hjourney, hcounts, hthree⟩

/-- With the largest budget of retries the policy asks for another attempt after the last one that can be counted,
and the counter overflows. So does that of a balanced call, for which far smaller budgets are enough. -/
theorem largest_budget_overflows :
    let c : RetryConfig := ⟨4294967295, .none, false⟩
    let draw : Nat → Binary64 := fun _ => .ofNat 0
    let call := TwoInstances.call
    c.policy draw Recovering.late 4294967295 = .retry .zero ∧
    ((retrying (c.policy draw) [] unanswered call).run 0 TwoInstances.world).1 = .error .attemptOverflow ∧
    ((balancing ⟨65535, 65535⟩ (some soleInstance) unanswered call).run 0 TwoInstances.world).1 =
      .error .attemptOverflow ∧
    ¬ ∀ (c : RetryConfig) (inner : Service Nat), c.maxRetries < twoTo 32 → (∀ call, KeepsCount (inner call)) →
      ∀ call, KeepsCount (retrying (c.policy draw) [] inner call) := by
  intro c draw call
  obtain ⟨ws, hretried⟩ := ends_run (retrying (c.policy draw) [] unanswered call) 0 TwoInstances.world
  have hover := overflow_of_retrying (by decide) hretried
  refine ⟨by decide, hover, ?_, fun hall => ?_⟩
  · obtain ⟨ws, hbalanced⟩ :=
      ends_run (balancing ⟨65535, 65535⟩ (some soleInstance) unanswered call) 0 TwoInstances.world
    exact overflow_of_balancing rfl (by decide) hbalanced
  · rw [hover] at hretried
    exact hall c unanswered (by decide) keepsCount_unanswered call _ _ _ _ _ hretried

end ResilientClient.Pipeline
