/-
Limits of the delay before a retry. The ceiling of an exponential backoff is computed in binary seconds, and still is
neither above its own maximum nor above a day (`ceiling_le`). Growth and jitter are cut to the ceiling, whatever the
factor and the draw are, and the server's hint can only shorten what is left (`policy_retry_limits`).
-/
import ResilientClient.Proofs.Duration.Conversion
import ResilientClient.Proofs.Pipeline.Flattening

namespace ResilientClient

namespace Duration

/-- The longest span of any exponential backoff. -/
def day : Duration := ofSeconds 86400

theorem nanos_day : day.nanos = 86400 * 1000000000 := by decide

variable {a b d : Duration}

theorem shorter_le_left (a b : Duration) : a.shorter b ≤ a := by
  unfold shorter
  split
  · exact Nat.le_refl _
  · rename_i h
    exact Nat.le_of_not_le h

theorem shorter_le_right (a b : Duration) : a.shorter b ≤ b := by
  unfold shorter
  split
  · assumption
  · exact Nat.le_refl _

theorem shorter_eq_left (h : a ≤ b) : a.shorter b = a := if_pos h

theorem le_shorter (ha : d ≤ a) (hb : d ≤ b) : d ≤ a.shorter b := by
  unfold shorter
  split <;> assumption

end Duration

namespace ExponentialBackoff

open Binary64 Duration

theorem denotes_daySeconds : Denotes daySeconds (86400 : Nat) := denotes_ofNat (by norm_num)

/-- The ceiling is the maximum, or a day when the maximum is longer than a day in seconds. -/
theorem ceiling_cases (b : ExponentialBackoff) :
    b.ceiling = .ofBinary64 b.max.toBinary64 ∧ daySeconds.lt b.max.toBinary64 = false ∨
    b.ceiling = .ofBinary64 daySeconds ∧
      (b.max.toBinary64.isNaN = true ∨ daySeconds.lt b.max.toBinary64 = true) := by
  unfold ceiling ceilingSeconds minimum
  rw [denotes_daySeconds.isNaN_eq_false]
  cases b.max.toBinary64.isNaN <;> cases daySeconds.lt b.max.toBinary64 <;> simp

theorem ofBinary64_daySeconds : Duration.ofBinary64 daySeconds = day := by decide +kernel

theorem ceiling_le_day (b : ExponentialBackoff) : b.ceiling ≤ day := by
  rcases b.ceiling_cases with ⟨hceiling, hlt⟩ | ⟨hceiling, -⟩
  · rw [hceiling]
    exact ofBinary64_le (by norm_num) hlt
  · rw [hceiling, ofBinary64_daySeconds]
    exact Nat.le_refl _

/-- The maximum is exact in seconds unless it is much longer than a day. -/
theorem ceiling_le_max (b : ExponentialBackoff) : b.ceiling ≤ b.max := by
  rcases Nat.lt_or_ge b.max.seconds (2 ^ 23) with hshort | hlong
  · obtain ⟨q, hq, hnear⟩ := toBinary64_near hshort
    rcases b.ceiling_cases with ⟨hceiling, -⟩ | ⟨hceiling, hnan | hlt⟩
    · rw [hceiling, ofBinary64_toBinary64 hshort]
      exact Nat.le_refl _
    · rw [hq.isNaN_eq_false] at hnan
      contradiction
    · rw [hceiling, ofBinary64_daySeconds]
      have hq' := (lt_iff denotes_daySeconds hq).mp hlt
      refine ge_of_near (by rw [abs_sub_comm]; exact hnear.trans (by norm_num)) ?_
      rw [nanos_day]
      push_cast at hq' ⊢
      linarith
  · have hday : day.nanos ≤ b.max.nanos := calc
      day.nanos = 86400 * 1000000000 := nanos_day
      _ ≤ b.max.seconds * 1000000000 := Nat.mul_le_mul_right _ (by omega)
      _ ≤ b.max.nanos := Nat.div_mul_le_self ..
    exact Nat.le_trans b.ceiling_le_day hday

theorem ceiling_le (b : ExponentialBackoff) : b.ceiling ≤ b.max.shorter day :=
  le_shorter b.ceiling_le_max b.ceiling_le_day

/-- Growth and jitter are cut to the ceiling, whatever the factor and the draw are. -/
theorem delay_le_ceiling (b : ExponentialBackoff) (draw : Binary64) (attempt : Nat) :
    b.delay draw attempt ≤ b.ceiling := shorter_le_right _ _

end ExponentialBackoff

namespace Backoff

/-- The longest delay that a backoff promises. -/
def longest : Backoff → Duration
  | .none => .zero
  | .fixed delay => delay
  | .exponential growth => growth.max.shorter .day

theorem delay_le_longest (backoff : Backoff) (draw : Binary64) (attempt : Nat) :
    backoff.delay draw attempt ≤ backoff.longest := by
  cases backoff with
  | none => exact Nat.le_refl _
  | fixed => exact Nat.le_refl _
  | exponential growth => exact Nat.le_trans (growth.delay_le_ceiling draw attempt) growth.ceiling_le

end Backoff

namespace RetryPolicy

variable {e : Error} {backoff : Duration}

theorem hinted_le (e : Error) (backoff : Duration) : hinted e backoff ≤ backoff := by
  unfold hinted
  split
  · exact Duration.shorter_le_right _ _
  · exact Nat.le_refl _

theorem hinted_of_hint {hint : Http.RetryHint} (h : e.retryHint? = some hint) :
    hinted e backoff = hint.delay.shorter backoff := by
  unfold hinted
  rw [h]

end RetryPolicy

namespace RetryConfig

variable {c : RetryConfig} {draw : Nat → Binary64} {e : Error} {attempt : Nat} {d : Duration}

/-- The only delay that a policy answers with. -/
theorem policy_eq_retry (h : c.policy draw e attempt = .retry d) :
    d = RetryPolicy.hinted e (c.backoff.delay (draw attempt) attempt) := by
  rw [c.hinted_eq_delayAfter]
  rcases c.policy_cases draw e attempt with ⟨-, h'⟩ | ⟨-, -, h'⟩ | ⟨-, -, h'⟩
  all_goals
    rw [h'] at h
    cases h
  rfl

/-- Whatever the multiplier, the draws and the number of the attempt are, a retry waits neither longer than the backoff
promises nor longer than the server asks for in the failure behind all wrappers, and exactly as long as the server asks
for when that is no longer than the backoff. -/
theorem policy_retry_limits (h : c.policy draw e attempt = .retry d) :
    d ≤ c.backoff.longest ∧
    ∀ hint, e.rootCause.retryHint? = some hint →
      d ≤ hint.delay ∧ (hint.delay ≤ c.backoff.delay (draw attempt) attempt → d = hint.delay) := by
  rw [policy_eq_retry h, Error.retryHint?_rootCause]
  refine ⟨Nat.le_trans (RetryPolicy.hinted_le _ _) (c.backoff.delay_le_longest _ _), fun hint hhint => ?_⟩
  rw [RetryPolicy.hinted_of_hint hhint]
  exact ⟨Duration.shorter_le_left _ _, Duration.shorter_eq_left⟩

/-- The multiplier is not a number, the maximum is a week, a quarter is drawn, and the hint stands behind a wrapper. -/
theorem policy_retry_limits_nan :
    let c : RetryConfig := ⟨3, .exponential ⟨.ofSeconds 7200, .ofSeconds 604800, .nan, true⟩, false⟩
    let quarter : Nat → Binary64 := fun _ => .ofRatio false 1 4
    let hint : Http.RetryHint := .after (.ofSeconds 8999)
    let e : Error := .outOfRetries 2 (.status "getUser" ⟨503⟩ "" none (some hint))
    ∃ d, c.policy quarter e 2 = .retry d ∧ d ≤ c.backoff.longest ∧
      hint.delay ≤ c.backoff.delay (quarter 2) 2 ∧ d = hint.delay := by
  intro c quarter hint e
  have hretry : c.policy quarter e 2 = .retry hint.delay := by decide +kernel
  have hshorter : hint.delay ≤ c.backoff.delay (quarter 2) 2 := by decide +kernel
  obtain ⟨hlongest, hhint⟩ := policy_retry_limits hretry
  exact ⟨hint.delay, hretry, hlongest, hshorter, (hhint hint rfl).2 hshorter⟩

end RetryConfig

end ResilientClient
