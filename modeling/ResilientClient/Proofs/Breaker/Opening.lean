/-
When a reported failure opens a closed breaker: exactly if the outcomes recorded since its window was
last restarted reach both thresholds. A window is restarted as a whole, by the first call that finds it
over; so failures that are less than a rolling window apart, with a restart between them, do not add up.
-/
import ResilientClient.Proofs.Breaker.Rounds

namespace ResilientClient

namespace Breaker

/-! ## Outcomes and thresholds -/

/-- The outcomes recorded less than a rolling window ago, since the breaker was last closed. -/
def Session.recent (s : Session) : List Entry :=
  (outcomesSince Entry.closes s.past).filter fun e =>
    decide (s.time < e.time + s.breaker.config.rollingWindow.nanos)

/-- These outcomes reach both thresholds. -/
def Suffices (config : BreakerConfig) (w : List Entry) : Prop :=
  config.failureThreshold.toNat ≤ w.countP Entry.countsFailure ∧ config.minimumCalls.toNat ≤ w.length

instance (config : BreakerConfig) (w : List Entry) : Decidable (Suffices config w) :=
  inferInstanceAs (Decidable (_ ∧ _))

theorem Suffices.mono {config : BreakerConfig} {v w : List Entry} (h : Suffices config v)
    (hs : v.Sublist w) : Suffices config w :=
  ⟨h.1.trans hs.countP_le, h.2.trans hs.length_le⟩

/-- A tally shows whether its outcomes suffice, as long as the counters have room. -/
theorem Tallies.overThreshold_iff {b : Breaker} {w : List Entry} (h : Tallies b w)
    (few : w.length < UInt32.size) : b.overThreshold = true ↔ Suffices b.config w := by
  obtain ⟨hc, hf⟩ := h.toNat few
  simp only [overThreshold, Bool.and_eq_true, decide_eq_true_eq, UInt32.le_iff_toNat_le, hc, hf, Suffices]
  exact and_comm

/-! ## The window and the rolling window -/

theorem window_sublist_recent {s : Session}
    (h : ∀ e ∈ s.window, s.time < e.time + s.breaker.config.rollingWindow.nanos) :
    s.window.Sublist s.recent := by
  have hs : s.window.Sublist (outcomesSince Entry.closes s.past) :=
    outcomesSince_mono (fun e he => by simp [Entry.restarts, he]) s.past
  have hf := hs.filter fun e => decide (s.time < e.time + s.breaker.config.rollingWindow.nanos)
  rwa [List.filter_eq_self.2 fun e he => decide_eq_true (h e he)] at hf

/-! ## A reported failure -/

section Failure

variable {s : Session} {ticket : Ticket} {number : Nat}

/-- The counters with which the thresholds are compared. -/
theorem tallies_step_failure (wait : Nat) (h : Accounted s) (hs : s.breaker.state = .closed)
    (ht : s.ticket? number = some ticket) :
    Tallies (s.breaker.rollWindow (s.time + wait)).countFailure
      (s.step ⟨wait, .settle number .failure⟩).window := by
  rw [Session.step_settle wait .failure ht]
  exact tallies_failure (accounted_pass h wait) hs ticket _

/-- If the rolling window is not empty, the outcomes counted when a failure is reported lie within
it. -/
theorem failure_recent (wait : Nat) (h : Accounted s) (hs : s.breaker.state = .closed)
    (ht : s.ticket? number = some ticket) (hw : 0 < s.breaker.config.rollingWindow.nanos) :
    (s.step ⟨wait, .settle number .failure⟩).window.Sublist
      (s.step ⟨wait, .settle number .failure⟩).recent := by
  have hnext : Accounted (s.step ⟨wait, .settle number .failure⟩) :=
    accounted_next (accounted_pass h wait) (s.step_next ⟨wait, .settle number .failure⟩)
  have hstart : (s.step ⟨wait, .settle number .failure⟩).breaker.windowStart =
      (s.breaker.rollWindow (s.time + wait)).windowStart := by
    rw [Session.step_settle wait .failure ht]; exact report_failure_windowStart hs _ _
  have hnow := rollWindow_recent s.breaker (s.time + wait)
  rw [← hstart, ← s.step_config ⟨wait, .settle number .failure⟩,
    ← s.step_time ⟨wait, .settle number .failure⟩] at hnow
  refine window_sublist_recent fun e he => (hnext.recent hnow e he).2.resolve_right fun h0 => ?_
  rw [s.step_config] at h0; omega

end Failure

/-- A failure reported to a closed breaker opens it exactly if the failures and the calls recorded
since the window was last restarted, this one included, reach the thresholds. If the rolling window is
not empty, they all lie within it. -/
theorem failure_opens_iff (config : BreakerConfig) (now : Instant) (moves : List Move)
    (number wait : Nat) :
    let s := (Session.start config now).run moves
    let next := s.step ⟨wait, .settle number .failure⟩
    s.breaker.state = .closed → (s.ticket? number).isSome →
      (next.window.length < UInt32.size →
        (next.breaker.state = .opened ↔ Suffices config next.window)) ∧
      (0 < config.rollingWindow.nanos → next.window.Sublist next.recent) := by
  intro s next hs ht
  obtain ⟨ticket, ht⟩ := Option.isSome_iff_exists.1 ht
  have hcfg : s.breaker.config = config := Session.run_config config now moves
  have hacc : Accounted s := accounted_run config now moves
  refine ⟨fun few => ?_, fun hw => failure_recent wait hacc hs ht (hcfg ▸ hw)⟩
  have hbreaker : next.breaker = (s.breaker.report (s.time + wait) ticket.trial .failure).1 := by
    show (s.step _).breaker = _
    rw [Session.step_settle wait .failure ht]; rfl
  have hcounted : (s.breaker.rollWindow (s.time + wait)).countFailure.config = config :=
    (rollWindow_config ..).trans hcfg
  have htally := tallies_step_failure wait hacc hs ht
  rw [hbreaker, report_failure_opened hs, htally.overThreshold_iff few, hcounted]

/-- Four failures within nine seconds, the last three since the window was restarted. -/
theorem failure_opens_across_restart :
    let config : BreakerConfig := { BreakerConfig.default with failureThreshold := 3, minimumCalls := 3 }
    let moves : List Move := [⟨2000000000, .ask⟩, ⟨0, .settle 0 .failure⟩, ⟨8000000000, .ask⟩,
      ⟨0, .settle 1 .failure⟩, ⟨0, .ask⟩, ⟨0, .settle 2 .failure⟩, ⟨0, .ask⟩]
    let s := (Session.start config 0).run moves
    let next := s.step ⟨1000000000, .settle 3 .failure⟩
    s.breaker.state = .closed ∧ (s.ticket? 3).isSome ∧ next.window.length < UInt32.size ∧
      Suffices config next.window ∧ next.breaker.state = .opened := by
  have few : ∀ w : List Entry, w.length = 3 → w.length < UInt32.size :=
    fun _ h => h.trans_lt (by norm_num)
  exact ⟨by decide, by decide, few _ (by decide), by decide,
    ((failure_opens_iff _ 0 _ 3 1000000000 (by decide) (by decide)).1 (few _ (by decide))).2 (by decide)⟩

/-! ## Bursts that do not open -/

/-- A failure reported to a closed breaker suffices where one call is enough. -/
theorem suffices_step_failure {s : Session} {ticket : Ticket} {number : Nat} (wait : Nat)
    (hs : s.breaker.state = .closed) (ht : s.ticket? number = some ticket)
    (hthr : s.breaker.config.failureThreshold.toNat ≤ 1) (hmin : s.breaker.config.minimumCalls.toNat ≤ 1) :
    Suffices s.breaker.config (s.step ⟨wait, .settle number .failure⟩).window := by
  obtain ⟨e, w, hw, he⟩ : ∃ e w, (s.step ⟨wait, .settle number .failure⟩).window = e :: w ∧
      e.countsFailure = true := by
    rw [Session.step_settle wait .failure ht]
    exact ⟨_, _, window_looked (s := s.pass wait) hs rfl,
      by simp [Entry.countsFailure, Happening.isFailure, Session.pass, hs]⟩
  rw [hw]
  refine ⟨hthr.trans ?_, hmin.trans ?_⟩
  · rw [List.countP_cons_of_pos he]; omega
  · rw [List.length_cons]; omega

/-- A failure that brings the counter of calls back to zero leaves the breaker closed, even where one
failure suffices. -/
theorem closed_of_full_counter (config : BreakerConfig) (hw : 0 < config.rollingWindow.nanos)
    (hthr : config.failureThreshold.toNat ≤ 1) (hmin : config.minimumCalls.toNat = 1) (n : Nat)
    (hn : n + 1 = UInt32.size) :
    let s := (Session.start config 0).run (rounds .success n ++ [⟨0, .ask⟩])
    s.breaker.state = .closed ∧ (s.ticket? n).isSome ∧
      Suffices config (s.step ⟨0, .settle n .failure⟩).recent ∧
      (s.step ⟨0, .settle n .failure⟩).breaker.state = .closed := by
  intro s
  have hacc : Accounted s := accounted_run config 0 _
  have hcfg : s.breaker.config = config := Session.run_config config 0 _
  have hroll : (counted config 0 n 0).rollWindow 0 = counted config 0 n 0 := rollWindow_counted hw
  obtain ⟨hb, hi, ht⟩ : s.breaker = counted config 0 n 0 ∧ (s.ticket? n).isSome ∧ s.time = 0 := by
    obtain ⟨hb, -, hi, ht⟩ := successes_run hw 0 n
    have hrun : s = ((Session.start config 0).run (rounds .success n)).ask := Session.run_append ..
    generalize (Session.start config 0).run (rounds .success n) = s0 at hb hi ht hrun
    subst hi
    rw [hrun, Session.ask_of_closed (by rw [hb]; rfl), hb, ht, hroll, Session.ticket?_grant]
    exact ⟨rfl, rfl, ht⟩
  have hclosed : s.breaker.state = .closed := by rw [hb]; rfl
  obtain ⟨ticket, hticket⟩ := Option.isSome_iff_exists.1 hi
  have hsuff := suffices_step_failure 0 hclosed hticket (hcfg ▸ hthr) (hcfg ▸ hmin.le)
  rw [hcfg] at hsuff
  refine ⟨hclosed, hi, hsuff.mono (failure_recent 0 hacc hclosed hticket (hcfg ▸ hw)), ?_⟩
  rw [Session.step_settle 0 .failure hticket]
  show (s.breaker.report _ _ .failure).1.state = _
  rw [report_failure_of_closed hclosed, ht, hb, hroll, countFailure_counted, if_neg]
  · rfl
  · -- the call that is counted last brings the counter back to zero
    rw [hn]
    intro hover
    have hle : config.minimumCalls.toNat ≤ (UInt32.ofNat UInt32.size).toNat := by
      simpa [overThreshold, counted, Breaker.create, UInt32.le_iff_toNat_le] using
        (Bool.and_eq_true_iff.1 hover).1
    have hzero : (UInt32.ofNat UInt32.size).toNat = 0 := by decide
    omega

/-- Two failures one second apart, the second of which finds the window of ten seconds over, leave a
breaker with a threshold of two closed. So does a failure that is enough by itself, once the counter of
calls is full. -/
theorem split_burst_stays_closed :
    let pair : BreakerConfig := { BreakerConfig.default with failureThreshold := 2, minimumCalls := 2 }
    let split := (Session.start pair 0).run [⟨0, .ask⟩, ⟨0, .ask⟩, ⟨9000000000, .settle 0 .failure⟩]
    let single : BreakerConfig := { BreakerConfig.default with failureThreshold := 1, minimumCalls := 1 }
    let full := (Session.start single 0).run (rounds .success 4294967295 ++ [⟨0, .ask⟩])
    (split.breaker.state = .closed ∧ (split.ticket? 1).isSome ∧
      Suffices pair (split.step ⟨1000000000, .settle 1 .failure⟩).recent ∧
      (split.step ⟨1000000000, .settle 1 .failure⟩).breaker.state = .closed) ∧
    (full.breaker.state = .closed ∧ (full.ticket? 4294967295).isSome ∧
      Suffices single (full.step ⟨0, .settle 4294967295 .failure⟩).recent ∧
      (full.step ⟨0, .settle 4294967295 .failure⟩).breaker.state = .closed) :=
  ⟨by decide, closed_of_full_counter _ (by decide) (by decide) (by decide) 4294967295 (by norm_num)⟩

end Breaker

end ResilientClient
