/-
Which failures end a call. A balancer looks at the failure behind all wrappers: it goes on after a fault of
the exchange with an instance, and goes on elsewhere if the instance could not be reached
(`Failover.of_cases`). Retries go on after every failure but the final ones (`RetryConfig.policy_cases`).
What is final for retries is no fault of an exchange, so that a balancer stops at it as well
(`RetryConfig.Final.not_exchangeFault`), and a 5xx status is a fault of an exchange that is never final,
not even in the wrapper of a balancer.
-/
import ResilientClient.Pipeline.Balance
import ResilientClient.Retry.Policy
import Mathlib.Tactic

namespace ResilientClient

/-! ## Causes -/

namespace Error

variable {e : Error}

@[simp] theorem rootCause_rootCause (e : Error) : e.rootCause.rootCause = e.rootCause := by
  induction e with
  | outOfRetries attempts last ih => exact ih
  | _ => rfl

@[simp] theorem status?_rootCause (e : Error) : e.rootCause.status? = e.status? := by
  unfold status?
  rw [rootCause_rootCause]

theorem rootCause_ne_outOfRetries (e : Error) (attempts : Nat) (last : Error) :
    e.rootCause ≠ .outOfRetries attempts last := by
  induction e with
  | outOfRetries _ _ ih => exact ih
  | _ => simp [rootCause]

@[simp] theorem rootCause_exhausted (attempts : Nat) (e : Error) :
    (exhausted attempts e).rootCause = e.rootCause := by
  cases e <;> rfl

/-- Behind the failure is a 5xx response. -/
def HasServerStatus (e : Error) : Prop :=
  ∃ status, e.status? = some status ∧ status.isServerError = true

/-- The instance could not be reached. -/
def IsConnectFailure (e : Error) : Prop := ∃ cause, e.rootCause = .transport .connect cause

/-- A fault of the exchange with an instance: of the connection or the body, a time limit that was
exceeded, or a 5xx response. -/
def IsExchangeFault (e : Error) : Prop :=
  (∃ fault cause, e.rootCause = .transport fault cause) ∨ (∃ cause, e.rootCause = .body cause) ∨
  (∃ limit, e.rootCause = .timeout limit) ∨ (∃ method limit, e.rootCause = .executionTimeout method limit) ∨
  e.HasServerStatus

theorem HasServerStatus.isExchangeFault (h : e.HasServerStatus) : e.IsExchangeFault :=
  .inr (.inr (.inr (.inr h)))

theorem HasServerStatus.exhausted (h : e.HasServerStatus) (attempts : Nat) :
    (exhausted attempts e).HasServerStatus := by
  unfold HasServerStatus status? at h ⊢
  rwa [rootCause_exhausted]

/-- A failure with a status behind it is of no other kind. -/
theorem HasServerStatus.rootCause_ne (h : e.HasServerStatus) {cause : Error}
    (hcause : cause.status? = none) : e.rootCause ≠ cause := by
  rintro rfl
  obtain ⟨status, hstatus, -⟩ := h
  rw [status?_rootCause] at hcause
  simp [hcause] at hstatus

theorem IsConnectFailure.isExchangeFault (h : e.IsConnectFailure) : e.IsExchangeFault :=
  .inl ⟨.connect, h⟩

theorem HasServerStatus.not_connectFailure (h : e.HasServerStatus) : ¬ e.IsConnectFailure := by
  rintro ⟨cause, hcause⟩
  exact h.rootCause_ne rfl hcause

/-! A fault of an exchange is of no other class. -/

theorem IsExchangeFault.not_construction (h : e.IsExchangeFault) : e.isConstruction = false := by
  cases e with
  | transport | body | timeout | executionTimeout | status | decoded | decodedFrom | outOfRetries => rfl
  | _ => simp [IsExchangeFault, HasServerStatus, status?, rootCause] at h

theorem IsExchangeFault.not_bodyTooLarge (h : e.IsExchangeFault) : e.isBodyTooLarge = false := by
  cases e with
  | bodyTooLarge => simp [IsExchangeFault, HasServerStatus, status?, rootCause] at h
  | _ => rfl

theorem IsExchangeFault.not_circuitOpen (h : e.IsExchangeFault) : e.isCircuitOpen = false := by
  unfold isCircuitOpen
  split
  · rename_i breaker hopen
    simp [IsExchangeFault, HasServerStatus, status?, hopen] at h
  · rfl

theorem IsExchangeFault.status?_cases (h : e.IsExchangeFault) : e.status? = none ∨ e.HasServerStatus := by
  rcases h with ⟨fault, cause, h⟩ | ⟨cause, h⟩ | ⟨limit, h⟩ | ⟨method, limit, h⟩ | h
  · left; unfold status?; rw [h]
  · left; unfold status?; rw [h]
  · left; unfold status?; rw [h]
  · left; unfold status?; rw [h]
  · right; exact h

theorem IsExchangeFault.not_clientRequestError (h : e.IsExchangeFault) : e.isClientRequestError = false := by
  unfold isClientRequestError
  rcases h.status?_cases with hnone | ⟨status, hstatus, hserver⟩
  · rw [hnone]
  · rw [hstatus]
    have hclient : status.isClientError = false := by
      simp only [Http.Status.isServerError, Http.Status.isClientError, Bool.and_eq_true, decide_eq_true_eq,
        Bool.and_eq_false_iff, decide_eq_false_iff_not] at hserver ⊢
      omega
    simp [hclient]

end Error

/-! ## Failovers -/

/-- What a balancer makes of a failure. -/
theorem Failover.of_cases (e : Error) :
    Failover.of e = .nextInstance ∧ e.IsConnectFailure ∨
    Failover.of e = .sameInstance ∧ e.IsExchangeFault ∧ ¬ e.IsConnectFailure ∨
    Failover.of e = .stop ∧ ¬ e.IsExchangeFault := by
  have hroot := Error.rootCause_ne_outOfRetries e
  unfold Failover.of Error.IsConnectFailure Error.IsExchangeFault Error.HasServerStatus
  rw [← Error.status?_rootCause e]
  generalize e.rootCause = cause at hroot ⊢
  cases cause with
  | transport fault text => cases fault <;> simp
  | outOfRetries attempts last => exact absurd rfl (hroot attempts last)
  | _ => simp [Error.status?, Error.rootCause]

theorem Failover.of_eq_stop_iff (e : Error) : Failover.of e = .stop ↔ ¬ e.IsExchangeFault := by
  rcases Failover.of_cases e with ⟨h, hconnect⟩ | ⟨h, hfault, -⟩ | ⟨h, hfault⟩
  · simp [h, hconnect.isExchangeFault]
  · simp [h, hfault]
  · simp [h, hfault]

theorem Failover.of_eq_sameInstance_iff (e : Error) :
    Failover.of e = .sameInstance ↔ e.IsExchangeFault ∧ ¬ e.IsConnectFailure := by
  rcases Failover.of_cases e with ⟨h, hconnect⟩ | ⟨h, hfault⟩ | ⟨h, hfault⟩
  · simp [h, hconnect]
  · simp [h, hfault]
  · simp [h, hfault]

/-! ## Retries -/

/-- Of two spans of one length either is the shorter one. -/
theorem Duration.shorter_eq (a b : Duration) : a.shorter b = if a < b then a else b := by
  unfold shorter
  by_cases hlt : a < b
  · have hle : a ≤ b := Nat.le_of_lt hlt
    rw [if_pos hle, if_pos hlt]
  · rw [if_neg hlt]
    split
    · rename_i hle
      cases a; cases b
      simp only [Duration.mk.injEq]
      exact Nat.le_antisymm hle (Nat.le_of_not_lt hlt)
    · rfl

namespace RetryConfig

variable {c : RetryConfig} {e : Error}

/-- A failure that is not retried: of making the request, of an open circuit, of a body that is too large,
or, unless the configuration retries them as well, one by which the server blames the request. -/
def Final (c : RetryConfig) (e : Error) : Prop :=
  e.isConstruction = true ∨ e.isCircuitOpen = true ∨ e.isBodyTooLarge = true ∨
  c.retryClientErrors = false ∧ e.isClientRequestError = true

/-- An outcome after which there is no other attempt: a response, or a final failure. -/
def Settles (c : RetryConfig) (o : Outcome) : Prop := ∀ e, o = .error e → c.Final e

/-- The delay after the failure of an attempt: the backoff, or the wait that the server asked for if that is
shorter. -/
def delayAfter (c : RetryConfig) (draw : Nat → Binary64) (attempt : Nat) (e : Error) : Duration :=
  let backoff := c.backoff.delay (draw attempt) attempt
  match e.retryHint? with
  | some hint => if hint.delay < backoff then hint.delay else backoff
  | none => backoff

theorem hinted_eq_delayAfter (c : RetryConfig) (draw : Nat → Binary64) (attempt : Nat) (e : Error) :
    RetryPolicy.hinted e (c.backoff.delay (draw attempt) attempt) = c.delayAfter draw attempt e := by
  unfold RetryPolicy.hinted delayAfter
  cases e.retryHint? with
  | none => rfl
  | some hint => exact Duration.shorter_eq _ _

theorem final_iff : c.Final e ↔ c.retries e = false ∨ e.isConstruction = true := by
  unfold Final retries
  cases e.isCircuitOpen <;> cases e.isBodyTooLarge <;> cases c.retryClientErrors <;> simp [or_comm]

/-- What the policy of a configuration makes of the failure of an attempt. -/
theorem policy_cases (c : RetryConfig) (draw : Nat → Binary64) (e : Error) (attempt : Nat) :
    c.Final e ∧ c.policy draw e attempt = .notRetryable ∨
    ¬ c.Final e ∧ c.maxRetries < attempt ∧ c.policy draw e attempt = .exhausted ∨
    ¬ c.Final e ∧ attempt ≤ c.maxRetries ∧
      c.policy draw e attempt = .retry (c.delayAfter draw attempt e) := by
  rw [final_iff]
  unfold policy RetryPolicy.only boundedPolicy RetryPolicy.bounded
  rw [hinted_eq_delayAfter]
  cases hretries : c.retries e
  · simp
  · cases hconstruction : e.isConstruction
    · rcases Nat.lt_or_ge c.maxRetries attempt with hspent | hleft
      · simp [hspent]
      · simp [hleft, Nat.not_lt.2 hleft]
    · simp

/-- What is final for retries is no fault of an exchange. -/
theorem Final.not_exchangeFault (h : c.Final e) : ¬ e.IsExchangeFault := by
  intro hfault
  rcases h with hconstruction | hopen | hlarge | ⟨-, hclient⟩
  · simp [hfault.not_construction] at hconstruction
  · simp [hfault.not_circuitOpen] at hopen
  · simp [hfault.not_bodyTooLarge] at hlarge
  · simp [hfault.not_clientRequestError] at hclient

/-- A 5xx status is worth another attempt, in a wrapper as well. -/
theorem not_final_of_hasServerStatus (h : e.HasServerStatus) : ¬ c.Final e := fun hfinal =>
  hfinal.not_exchangeFault h.isExchangeFault

end RetryConfig

end ResilientClient
