/-
When a breaker lets calls in. It rejects only while it sleeps and while all places of a half-open
period are taken (`acquire_eq_none_iff`). No place is ever lost, so that a breaker all of whose permits
are settled admits a call as soon as its sleep window is over (`admits_once_settled`); and nothing that
happens before that wakes it, closes it or makes it sleep longer (`asleep_run`).
-/
import ResilientClient.Proofs.Breaker.Trials

namespace ResilientClient.Breaker

/-! ## Rejections -/

theorem acquire_eq_none_iff (b : Breaker) (t : Instant) :
    (b.acquire t).1 = none ↔
      b.state = .opened ∧ b.sleptEnough t = false ∨
      b.state = .halfOpen ∧ b.config.trialLimit ≤ b.trials.toNat := by
  have h := acquire_answer b t
  constructor
  · intro hnone
    rw [hnone] at h
    generalize (b.acquire t).2.1 = after at h
    cases h with
    | asleep hs hslept => exact .inl ⟨hs, hslept⟩
    | full hs hr => exact .inr ⟨hs, hr⟩
  · rintro (⟨hs, hslept⟩ | ⟨hs, hr⟩)
    · rw [acquire_of_asleep hs hslept]
    · rw [acquire_of_full hs hr]

theorem sleptEnough_of_le {b : Breaker} {t : Instant}
    (h : b.openedAt + b.config.sleepWindow.nanos ≤ t) : b.sleptEnough t = true :=
  decide_eq_true (by lia)

theorem not_sleptEnough_of_lt {b : Breaker} {t : Instant} (hs : b.openedAt ≤ t)
    (h : t < b.openedAt + b.config.sleepWindow.nanos) : b.sleptEnough t = false :=
  decide_eq_false (by lia)

/-! ## No place is lost -/

theorem openTrials_of_settled {s : Session} (h : s.held = []) : s.openTrials = 0 := by
  unfold Session.openTrials; rw [h]; rfl

/-- A breaker whose permits have all been settled rejects a call only while it sleeps. -/
theorem acquire_isSome_of_settled {s : Session} (h : s.held = [])
    (hcount : s.breaker.state = .halfOpen → TrialsCounted s) {t : Instant}
    (ht : s.breaker.state = .opened → s.breaker.openedAt + s.breaker.config.sleepWindow.nanos ≤ t) :
    (s.breaker.acquire t).1.isSome := by
  rw [Option.isSome_iff_ne_none]
  intro hnone
  rcases (acquire_eq_none_iff s.breaker t).1 hnone with ⟨hs, hslept⟩ | ⟨hs, hfull⟩
  · rw [sleptEnough_of_le (ht hs)] at hslept; cases hslept
  · -- the places that are taken are those of trials that are out, and none is
    have hleast := (hcount hs).least
    rw [openTrials_of_settled h] at hleast
    have hpos := trialLimit_pos s.breaker.config
    omega

/-- The places taken in a half-open period are never more than its trials that are out. So once every
permit has been settled, in whatever way, a call is admitted from the end of the sleep window on. -/
theorem admits_once_settled (config : BreakerConfig) (now : Instant) (moves : List Move) :
    let s := (Session.start config now).run moves
    (s.breaker.state = .halfOpen → s.breaker.trials.toNat ≤ s.openTrials) ∧
    (s.held = [] → ∀ wait, s.breaker.openedAt + config.sleepWindow.nanos ≤ s.time + wait →
      (s.breaker.acquire (s.time + wait)).1.isSome) := by
  intro s
  have hcfg : s.breaker.config = config := Session.run_config config now moves
  have hcount : s.breaker.state = .halfOpen → TrialsCounted s := counted_run config now moves
  refine ⟨fun hs => (hcount hs).least, fun hheld wait ht => ?_⟩
  exact acquire_isSome_of_settled hheld hcount fun _ => by rwa [hcfg]

/-- A trial of the second half-open period is dropped after one that was left over from the first: both
places are free again. -/
theorem admits_once_settled_twice_halfOpen :
    let config : BreakerConfig :=
      { BreakerConfig.default with failureThreshold := 1, minimumCalls := 1, halfOpenMaxCalls := 2 }
    let moves : List Move := [⟨0, .ask⟩, ⟨0, .settle 0 .failure⟩, ⟨5000000000, .ask⟩, ⟨0, .ask⟩,
      ⟨0, .settle 1 .failure⟩, ⟨5000000000, .ask⟩, ⟨0, .settle 2 .ignored⟩, ⟨0, .settle 3 .ignored⟩]
    let s := (Session.start config 0).run moves
    s.breaker.state = .halfOpen ∧ s.held = [] ∧ s.breaker.trials.toNat ≤ s.openTrials ∧
      (s.breaker.acquire s.time).1.isSome := by
  refine ⟨by decide, by decide, ?_, ?_⟩
  · exact (admits_once_settled _ 0 _).1 (by decide)
  · exact (admits_once_settled _ 0 _).2 (by decide) 0 (by decide)

/-! ## Sleep -/

section Operations

variable {b b' : Breaker} {t : Instant}

/-- No report disturbs an open breaker. -/
theorem Effect.of_opened {trial : Bool} {v : Verdict} (h : Effect b t trial v b')
    (hs : b.state = .opened) : b' = b := by
  cases h with
  | succeeded hc | failed hc | tripped hc => rw [hs] at hc; cases hc
  | closes hh | reopens hh | released hh => rw [hs] at hh; cases hh
  | unchanged => rfl

/-- A report that opens a breaker starts its sleep. -/
theorem Effect.openedAt {trial : Bool} {v : Verdict} (h : Effect b t trial v b')
    (hs : b.state ≠ .opened) (ho : b'.state = .opened) : b'.openedAt = t := by
  cases h with
  | tripped | reopens => rfl
  | succeeded hc | failed hc => simp [countSuccess, countFailure, hc] at ho
  | closes => cases ho
  | released => exact absurd ((releaseTrial_state b).symm.trans ho) hs
  | unchanged => exact absurd ho hs

/-- A sleeping breaker rejects every request and stays as it is. -/
theorem Answer.of_asleep {answer : Option Bool} (h : Answer b t answer b') (hs : b.state = .opened)
    (hslept : b.sleptEnough t = false) : answer = none ∧ b' = b := by
  cases h with
  | closed hc => rw [hs] at hc; cases hc
  | asleep => exact ⟨rfl, rfl⟩
  | woken _ hw => rw [hslept] at hw; cases hw
  | trial hh | full hh => rw [hs] at hh; cases hh

end Operations

/-- The breaker has been open since an instant. -/
structure OpenSince (config : BreakerConfig) (since : Instant) (s : Session) : Prop where
  config : s.breaker.config = config
  opened : s.breaker.state = .opened
  openedAt : s.breaker.openedAt = since
  time : since ≤ s.time

section Sleep

variable {config : BreakerConfig} {since : Instant} {s s' : Session} {deed : Deed}

theorem OpenSince.not_sleptEnough (h : OpenSince config since s)
    (ht : s.time < since + config.sleepWindow.nanos) : s.breaker.sleptEnough s.time = false :=
  not_sleptEnough_of_lt (h.openedAt ▸ h.time) (by rwa [h.openedAt, h.config])

theorem OpenSince.pass (h : OpenSince config since s) (wait : Nat) :
    OpenSince config since (s.pass wait) :=
  ⟨h.config, h.opened, h.openedAt, h.time.trans (Nat.le_add_right _ _)⟩

theorem openSince_next (h : OpenSince config since s) (ht : s.time < since + config.sleepWindow.nanos)
    (hn : Session.Next s deed s') : OpenSince config since s' := by
  cases hn with
  | admitted ha => cases (ha.of_asleep h.opened (h.not_sleptEnough ht)).1
  | rejected ha =>
    obtain ⟨-, rfl⟩ := ha.of_asleep h.opened (h.not_sleptEnough ht)
    exact ⟨h.config, h.opened, h.openedAt, h.time⟩
  | ended _ he =>
    obtain rfl := he.of_opened h.opened
    exact ⟨h.config, h.opened, h.openedAt, h.time⟩
  | missing => exact h

/-- Until its sleep window is over an open breaker stays as it is, whatever is asked and reported. -/
theorem asleep_run (h : OpenSince config since s) (moves : List Move)
    (ht : (s.run moves).time < since + config.sleepWindow.nanos) : OpenSince config since (s.run moves) := by
  -- the clock never goes back, so that the bound holds all along
  refine Session.run_induction
    (P := fun s => s.time < since + config.sleepWindow.nanos → OpenSince config since s)
    (fun s wait hs ht => (hs (by simp only [Session.pass] at ht; lia)).pass wait)
    (fun s deed s' hs hn ht => ?_) moves s (fun _ => h) ht
  rw [Session.next_time hn] at ht
  exact openSince_next (hs ht) ht hn

/-- A move that opens the breaker starts its sleep. -/
theorem openSince_of_opens (hcfg : s.breaker.config = config) (move : Move)
    (hs : s.breaker.state ≠ .opened) (ho : (s.step move).breaker.state = .opened) :
    OpenSince config (s.step move).time (s.step move) := by
  refine ⟨(s.step_config move).trans hcfg, ho, ?_, le_refl _⟩
  have hn := s.step_next move
  rw [Session.next_time hn]
  generalize s.step move = next at ho hn
  generalize move.deed = deed at hn
  -- the wait before the deed leaves the breaker as it is
  have hpass : (s.pass move.wait).breaker.state ≠ .opened := hs
  cases hn with
  | admitted ha => exact absurd (ha.opened ho) hpass
  | rejected ha => exact absurd (ha.opened ho) hpass
  | ended _ he => exact he.openedAt hpass ho
  | missing => exact absurd ho hpass

end Sleep

end ResilientClient.Breaker
