/-
What the operations of a breaker do, one case for each way through them: how a request for a call is
answered (`acquire_answer`) and what the report of an admitted call changes (`report_effect`).
Everything that is proved about runs of a breaker goes through these cases.
-/
import ResilientClient.Breaker.Basic
import Mathlib.Tactic

namespace ResilientClient.Breaker

/-! ## The window -/

@[simp] theorem rollWindow_config (b : Breaker) (t : Instant) : (b.rollWindow t).config = b.config := by
  unfold rollWindow; split <;> rfl

@[simp] theorem rollWindow_state (b : Breaker) (t : Instant) : (b.rollWindow t).state = b.state := by
  unfold rollWindow; split <;> rfl

theorem rollWindow_of_le {b : Breaker} {t : Instant}
    (h : b.windowStart + b.config.rollingWindow.nanos ≤ t) :
    b.rollWindow t = { b with windowStart := t, calls := 0, failures := 0 } := by
  unfold rollWindow; rw [if_pos (by lia)]

theorem rollWindow_of_lt {b : Breaker} {t : Instant}
    (h : t < b.windowStart + b.config.rollingWindow.nanos) (hs : b.windowStart ≤ t) :
    b.rollWindow t = b := by
  unfold rollWindow; rw [if_neg (by lia)]

theorem windowStart_rollWindow_le {b : Breaker} {t : Instant} (h : b.windowStart ≤ t) :
    (b.rollWindow t).windowStart ≤ t := by
  unfold rollWindow; split
  · exact le_refl t
  · exact h

/-- A window that has been rolled began less than its length ago, or just now if it has none. -/
theorem rollWindow_recent (b : Breaker) (t : Instant) :
    t < (b.rollWindow t).windowStart + b.config.rollingWindow.nanos ∨
      b.config.rollingWindow.nanos = 0 ∧ (b.rollWindow t).windowStart = t := by
  unfold rollWindow; split
  · rcases Nat.eq_zero_or_pos b.config.rollingWindow.nanos with h | h
    · exact .inr ⟨h, rfl⟩
    · left; dsimp only; lia
  · left; lia

/-! ## Requests -/

theorem trialLimit_pos (c : BreakerConfig) : 0 < c.trialLimit := by
  unfold BreakerConfig.trialLimit; omega

theorem trialLimit_lt (c : BreakerConfig) : c.trialLimit < UInt32.size := by
  have := c.halfOpenMaxCalls.toNat_lt_size
  unfold BreakerConfig.trialLimit UInt32.size at *; omega

theorem toNat_trials_succ {b : Breaker} (h : b.trials.toNat < b.config.trialLimit) :
    (b.trials + 1).toNat = b.trials.toNat + 1 := by
  have := trialLimit_lt b.config
  rw [UInt32.toNat_add]
  exact Nat.mod_eq_of_lt (by simp only [UInt32.size] at this; simp; omega)

section Acquire

variable {b : Breaker} {t : Instant}

theorem acquire_of_closed (h : b.state = .closed) : b.acquire t = (some false, b.rollWindow t, []) := by
  simp [acquire, wake, admission, h]

theorem acquire_of_asleep (h : b.state = .opened) (hs : b.sleptEnough t = false) :
    b.acquire t = (none, b, []) := by
  simp [acquire, wake, admission, h, hs]

/-- The first trial after the sleep always finds room. -/
theorem acquire_of_slept (h : b.state = .opened) (hs : b.sleptEnough t = true) :
    b.acquire t = (some true, { b with state := .halfOpen, trials := 1 }, [.admittingTrials]) := by
  simp [acquire, wake, admission, hasTrialRoom, h, hs, trialLimit_pos]

theorem acquire_of_room (h : b.state = .halfOpen) (hr : b.trials.toNat < b.config.trialLimit) :
    b.acquire t = (some true, { b with trials := b.trials + 1 }, []) := by
  simp [acquire, wake, admission, hasTrialRoom, h, hr]

theorem acquire_of_full (h : b.state = .halfOpen) (hr : b.config.trialLimit ≤ b.trials.toNat) :
    b.acquire t = (none, b, []) := by
  simp [acquire, wake, admission, hasTrialRoom, h, Nat.not_lt.2 hr]

end Acquire

/-- How a breaker answers a request for a call: whether the call is a trial, or nothing when it is
rejected, and the breaker afterwards. -/
inductive Answer (b : Breaker) (t : Instant) : Option Bool → Breaker → Prop
  | closed : b.state = .closed → Answer b t (some false) (b.rollWindow t)
  | asleep : b.state = .opened → b.sleptEnough t = false → Answer b t none b
  | woken : b.state = .opened → b.sleptEnough t = true →
      Answer b t (some true) { b with state := .halfOpen, trials := 1 }
  | trial : b.state = .halfOpen → b.trials.toNat < b.config.trialLimit →
      Answer b t (some true) { b with trials := b.trials + 1 }
  | full : b.state = .halfOpen → b.config.trialLimit ≤ b.trials.toNat → Answer b t none b

theorem acquire_answer (b : Breaker) (t : Instant) : Answer b t (b.acquire t).1 (b.acquire t).2.1 := by
  cases h : b.state with
  | closed => rw [acquire_of_closed h]; exact .closed h
  | opened =>
    cases hs : b.sleptEnough t with
    | false => rw [acquire_of_asleep h hs]; exact .asleep h hs
    | true => rw [acquire_of_slept h hs]; exact .woken h hs
  | halfOpen =>
    rcases Nat.lt_or_ge b.trials.toNat b.config.trialLimit with hr | hr
    · rw [acquire_of_room h hr]; exact .trial h hr
    · rw [acquire_of_full h hr]; exact .full h hr

namespace Answer

variable {b b' : Breaker} {t : Instant} {answer : Option Bool}

theorem config (h : Answer b t answer b') : b'.config = b.config := by
  cases h <;> simp

/-- No request opens a breaker. -/
theorem opened (h : Answer b t answer b') (ho : b'.state = .opened) : b.state = .opened := by
  cases h with
  | closed => rwa [rollWindow_state] at ho
  | woken hs => exact hs
  | asleep | trial | full => exact ho

/-- No request ends a half-open period. -/
theorem stays (h : Answer b t answer b') (hs : b.state = .halfOpen) : b'.state = .halfOpen := by
  cases h with
  | closed hc => rw [hs] at hc; cases hc
  | woken => rfl
  | asleep | trial | full => exact hs

end Answer

/-! ## Reports -/

theorem report_success_of_closed {b : Breaker} (h : b.state = .closed) (t : Instant) (trial : Bool) :
    (b.report t trial .success).1 = (b.rollWindow t).countSuccess := by
  simp [report, reportSuccess, h]

theorem report_failure_of_closed {b : Breaker} (h : b.state = .closed) (t : Instant) (trial : Bool) :
    (b.report t trial .failure).1 =
      if (b.rollWindow t).countFailure.overThreshold then (b.rollWindow t).countFailure.trip t
      else (b.rollWindow t).countFailure := by
  simp only [report, reportFailure, h]
  split <;> rfl

/-- A failure reported to a closed breaker opens it exactly if it is then over its thresholds. -/
theorem report_failure_opened {b : Breaker} (h : b.state = .closed) (t : Instant) (trial : Bool) :
    (b.report t trial .failure).1.state = .opened ↔
      (b.rollWindow t).countFailure.overThreshold = true := by
  rw [report_failure_of_closed h]
  split
  · rename_i ho; exact ⟨fun _ => ho, fun _ => rfl⟩
  · rename_i ho
    have hs : (b.rollWindow t).countFailure.state = .closed := (rollWindow_state b t).trans h
    rw [hs]; exact ⟨fun hc => (by cases hc), fun hc => absurd hc ho⟩

theorem report_failure_windowStart {b : Breaker} (h : b.state = .closed) (t : Instant) (trial : Bool) :
    (b.report t trial .failure).1.windowStart = (b.rollWindow t).windowStart := by
  rw [report_failure_of_closed h]
  split <;> rfl

theorem report_success_of_halfOpen {b : Breaker} (h : b.state = .halfOpen) (t : Instant) :
    (b.report t true .success).1 = b.close t := by
  simp [report, reportSuccess, h]

theorem report_failure_of_halfOpen {b : Breaker} (h : b.state = .halfOpen) (t : Instant) :
    (b.report t true .failure).1 = b.trip t := by
  simp [report, reportFailure, h]

/-- What the report of an admitted call makes of the breaker. -/
inductive Effect (b : Breaker) (t : Instant) (trial : Bool) : Verdict → Breaker → Prop
  | succeeded : b.state = .closed → Effect b t trial .success (b.rollWindow t).countSuccess
  | failed : b.state = .closed → (b.rollWindow t).countFailure.overThreshold = false →
      Effect b t trial .failure (b.rollWindow t).countFailure
  | tripped : b.state = .closed → (b.rollWindow t).countFailure.overThreshold = true →
      Effect b t trial .failure ((b.rollWindow t).countFailure.trip t)
  | closes : b.state = .halfOpen → trial = true → Effect b t trial .success (b.close t)
  | reopens : b.state = .halfOpen → trial = true → Effect b t trial .failure (b.trip t)
  | released : b.state = .halfOpen → trial = true → Effect b t trial .ignored b.releaseTrial
  | unchanged {v : Verdict} : (b.state = .closed → v = .ignored) →
      (b.state = .halfOpen → trial = false) → Effect b t trial v b

theorem report_effect (b : Breaker) (t : Instant) (trial : Bool) (v : Verdict) :
    Effect b t trial v (b.report t trial v).1 := by
  cases hs : b.state with
  | closed =>
    cases v with
    | success => rw [report_success_of_closed hs]; exact .succeeded hs
    | failure =>
      rw [report_failure_of_closed hs]
      split
      · rename_i ho; exact .tripped hs ho
      · rename_i ho; exact .failed hs (by simpa using ho)
    | ignored => simpa [report, releaseTrial, hs] using Effect.unchanged (by simp) (by simp [hs])
  | opened =>
    have h : (b.report t trial v).1 = b := by
      cases v <;> simp [report, reportSuccess, reportFailure, releaseTrial, hs]
    rw [h]; exact .unchanged (by simp [hs]) (by simp [hs])
  | halfOpen =>
    cases trial with
    | false =>
      have h : (b.report t false v).1 = b := by
        cases v <;> simp [report, reportSuccess, reportFailure, hs]
      rw [h]; exact .unchanged (by simp [hs]) (by simp)
    | true =>
      cases v with
      | success => rw [report_success_of_halfOpen hs]; exact .closes hs rfl
      | failure => rw [report_failure_of_halfOpen hs]; exact .reopens hs rfl
      | ignored => exact .released hs rfl

@[simp] theorem releaseTrial_config (b : Breaker) : b.releaseTrial.config = b.config := by
  unfold releaseTrial; split <;> rfl

@[simp] theorem releaseTrial_state (b : Breaker) : b.releaseTrial.state = b.state := by
  unfold releaseTrial; split <;> rfl

theorem toNat_trials_release {b : Breaker} (h : b.state = .halfOpen) :
    b.releaseTrial.trials.toNat = b.trials.toNat - 1 := by
  unfold releaseTrial
  rw [if_pos h]
  by_cases h0 : b.trials = 0
  · rw [if_pos h0, h0]; rfl
  · have hone : 1 ≤ b.trials := UInt32.pos_iff_ne_zero.2 h0
    rw [if_neg h0]; exact UInt32.toNat_sub_of_le _ _ hone

namespace Effect

variable {b b' : Breaker} {t : Instant} {trial : Bool} {v : Verdict}

theorem config (h : Effect b t trial v b') : b'.config = b.config := by
  cases h <;> simp [countSuccess, countFailure, trip, close]

/-- A closed breaker is opened only by a failure that brings it over its thresholds. -/
theorem opened (h : Effect b t trial v b') (hs : b.state = .closed) (ho : b'.state = .opened) :
    v = .failure ∧ (b.rollWindow t).countFailure.overThreshold = true ∧
      b' = (b.rollWindow t).countFailure.trip t := by
  cases h with
  | tripped _ hover => exact ⟨rfl, hover, rfl⟩
  | succeeded | failed => simp [countSuccess, countFailure, hs] at ho
  | closes hh | reopens hh | released hh => rw [hs] at hh; cases hh
  | unchanged => rw [hs] at ho; cases ho

/-- A report after which the breaker is half-open found it half-open, and at most gave a place back. -/
theorem stays (h : Effect b t trial v b') (hs : b'.state = .halfOpen) :
    b.state = .halfOpen ∧
      (trial = true ∧ v = .ignored ∧ b' = b.releaseTrial ∨ trial = false ∧ b' = b) := by
  cases h with
  | succeeded hc | failed hc => simp [countSuccess, countFailure, hc] at hs
  | tripped | closes | reopens => cases hs
  | released hh ht => exact ⟨hh, .inl ⟨ht, rfl, rfl⟩⟩
  | unchanged _ hn => exact ⟨hs, .inr ⟨hn hs, rfl⟩⟩

/-- A half-open breaker is closed by the success of a trial and opened by the failure of one. -/
theorem leaves (h : Effect b t trial v b') (hs : b.state = .halfOpen) (hl : b'.state ≠ .halfOpen) :
    trial = true ∧ (v = .success ∧ b'.state = .closed ∨ v = .failure ∧ b'.state = .opened) := by
  cases h with
  | succeeded hc | failed hc | tripped hc => rw [hs] at hc; cases hc
  | closes _ ht => exact ⟨ht, .inl ⟨rfl, rfl⟩⟩
  | reopens _ ht => exact ⟨ht, .inr ⟨rfl, rfl⟩⟩
  | released => exact absurd ((releaseTrial_state b).trans hs) hl
  | unchanged => exact absurd hs hl

end Effect

end ResilientClient.Breaker
