/-
The counters of a breaker against the record of its session: whatever the order of requests and
reports, they hold the outcomes recorded since the window was last restarted, in 32 bits, and the
window began before the first of them (`accounted_run`). So a closed breaker has counted exactly
these outcomes, and it opens only on a failure that brings them over both thresholds, all of them
within one rolling window (`opens_by_failure`).
-/
import ResilientClient.Proofs.Breaker.Session

namespace ResilientClient.Breaker

/-! ## Recorded outcomes -/

namespace Happening

/-- The report of a success or of a failure. -/
def isOutcome : Happening → Bool
  | .ended _ .success => true
  | .ended _ .failure => true
  | _ => false

def isFailure : Happening → Bool
  | .ended _ .failure => true
  | _ => false

/-- The end of a call whose outcome is not reported. -/
def isIgnored : Happening → Bool
  | .ended _ .ignored => true
  | _ => false

end Happening

namespace Entry

/-- An outcome that a closed breaker records. -/
def counts (e : Entry) : Bool := decide (e.before.state = .closed) && e.what.isOutcome

/-- A failure that a closed breaker records. -/
def countsFailure (e : Entry) : Bool := decide (e.before.state = .closed) && e.what.isFailure

/-- The breaker becomes closed. -/
def closes (e : Entry) : Bool := decide (e.before.state ≠ .closed) && decide (e.after.state = .closed)

/-- A closed breaker finds its window over; it does not look when an outcome is ignored. -/
def rolls (e : Entry) : Bool :=
  decide (e.before.state = .closed) && !e.what.isIgnored &&
    decide (e.before.windowStart + e.before.config.rollingWindow.nanos ≤ e.time)

/-- The window is restarted. -/
def restarts (e : Entry) : Bool := e.closes || e.rolls

end Entry

/-- The outcomes recorded since the last entry of a kind, latest first. Such an entry acts before its
own outcome is recorded. -/
def outcomesSince (kind : Entry → Bool) : List Entry → List Entry
  | [] => []
  | e :: past => (if e.counts then [e] else []) ++ if kind e then [] else outcomesSince kind past

namespace Session

/-- All outcomes that have been recorded. -/
def outcomes (s : Session) : List Entry := s.past.filter Entry.counts

/-- The outcomes recorded since the window was last restarted. -/
def window (s : Session) : List Entry := outcomesSince Entry.restarts s.past

end Session

/-- The more entries are of the kind, the fewer outcomes come after the last of them. -/
theorem outcomesSince_mono {k k' : Entry → Bool} (h : ∀ e, k e = true → k' e = true) :
    ∀ past : List Entry, (outcomesSince k' past).Sublist (outcomesSince k past)
  | [] => .slnil
  | e :: past => by
    have ih := outcomesSince_mono h past
    rw [outcomesSince, outcomesSince]
    refine (List.Sublist.refl _).append ?_
    by_cases hk : k e = true
    · rw [if_pos hk, if_pos (h e hk)]
    · rw [if_neg hk]
      split
      · exact List.nil_sublist _
      · exact ih

theorem outcomesSince_never :
    ∀ past : List Entry, outcomesSince (fun _ => false) past = past.filter Entry.counts
  | [] => rfl
  | e :: past => by
    rw [outcomesSince, outcomesSince_never past, List.filter_cons]
    split <;> rfl

theorem length_window_le (s : Session) : s.window.length ≤ s.outcomes.length := by
  unfold Session.window Session.outcomes
  rw [← outcomesSince_never]
  exact (outcomesSince_mono (by simp) s.past).length_le

/-! ## Tallies -/

/-- The counters of a breaker hold these outcomes, and its window began before them. -/
structure Tallies (b : Breaker) (w : List Entry) : Prop where
  calls : b.calls = UInt32.ofNat w.length
  failures : b.failures = UInt32.ofNat (w.countP Entry.countsFailure)
  begun : ∀ e ∈ w, b.windowStart ≤ e.time

theorem ofNat_succ (n : Nat) : UInt32.ofNat (n + 1) = UInt32.ofNat n + 1 := UInt32.ofNat_add n 1

namespace Tallies

variable {b b' : Breaker} {w : List Entry} {e : Entry} {t : Instant}

theorem nil (hc : b.calls = 0) (hf : b.failures = 0) : Tallies b [] :=
  ⟨hc, hf, by simp⟩

theorem congr (h : Tallies b w) (hc : b'.calls = b.calls) (hf : b'.failures = b.failures)
    (hs : b'.windowStart = b.windowStart) : Tallies b' w :=
  ⟨hc.trans h.calls, hf.trans h.failures, hs ▸ h.begun⟩

/-- Rolling the window forgets its outcomes exactly when the window is over. -/
theorem rollWindow (h : Tallies b w) (hs : b.windowStart ≤ t) :
    Tallies (b.rollWindow t)
      (if b.windowStart + b.config.rollingWindow.nanos ≤ t then [] else w) := by
  split
  · rename_i hle
    rw [rollWindow_of_le hle]; exact nil rfl rfl
  · rename_i hlt
    rw [rollWindow_of_lt (by lia) hs]; exact h

theorem countSuccess (h : Tallies b w) (ht : b.windowStart ≤ e.time) (hf : e.countsFailure = false) :
    Tallies b.countSuccess (e :: w) := by
  refine ⟨?_, ?_, ?_⟩
  · rw [List.length_cons, ofNat_succ, ← h.calls]; rfl
  · rw [List.countP_cons_of_neg (by simp [hf])]; exact h.failures
  · intro x hx
    rcases List.mem_cons.1 hx with rfl | hx
    · exact ht
    · exact h.begun x hx

theorem countFailure (h : Tallies b w) (ht : b.windowStart ≤ e.time) (hf : e.countsFailure = true) :
    Tallies b.countFailure (e :: w) := by
  refine ⟨?_, ?_, ?_⟩
  · rw [List.length_cons, ofNat_succ, ← h.calls]; rfl
  · rw [List.countP_cons_of_pos hf, ofNat_succ, ← h.failures]; rfl
  · intro x hx
    rcases List.mem_cons.1 hx with rfl | hx
    · exact ht
    · exact h.begun x hx

end Tallies

/-! ## Every session is accounted for -/

/-- The breaker has counted the outcomes of the current window. -/
structure Accounted (s : Session) : Prop where
  tallies : Tallies s.breaker s.window
  begun : s.breaker.windowStart ≤ s.time
  past : ∀ e ∈ s.window, e.time ≤ s.time

theorem accounted_start (config : BreakerConfig) (now : Instant) : Accounted (Session.start config now) :=
  ⟨.nil rfl rfl, le_refl now, by simp [Session.start, Session.window, outcomesSince]⟩

theorem accounted_pass {s : Session} (h : Accounted s) (wait : Nat) : Accounted (s.pass wait) := by
  refine ⟨h.tallies, ?_, ?_⟩
  · have := h.begun
    simp only [Session.pass]; lia
  · intro e he
    have := h.past e he
    simp only [Session.pass]; lia

section Enter

variable {s : Session} {after : Breaker} {what : Happening}

theorem window_enter : (s.enter after what).window =
    (if (s.entry after what).counts then [s.entry after what] else []) ++
      if (s.entry after what).restarts then [] else s.window := rfl

theorem Accounted.enter (h : Accounted s) (ht : Tallies after (s.enter after what).window)
    (hb : after.windowStart ≤ s.time) : Accounted (s.enter after what) := by
  refine ⟨ht, hb, ?_⟩
  intro e he
  rw [window_enter, List.mem_append] at he
  rcases he with he | he <;> split at he
  · rw [List.mem_singleton.1 he]; exact le_refl s.time
  · cases he
  · cases he
  · exact h.past e he

/-- An entry that records nothing and leaves the window alone. -/
theorem accounted_quiet (h : Accounted s) (hc : (s.entry after what).counts = false)
    (hr : (s.entry after what).restarts = false) (hcalls : after.calls = s.breaker.calls)
    (hfails : after.failures = s.breaker.failures) (hs : after.windowStart = s.breaker.windowStart) :
    Accounted (s.enter after what) := by
  have hw : (s.enter after what).window = s.window := by rw [window_enter, hc, hr]; rfl
  exact h.enter (hw ▸ h.tallies.congr hcalls hfails hs) ((le_of_eq hs).trans h.begun)

/-- An entry between two breakers that are not closed. -/
theorem accounted_idle (h : Accounted s) (hb : s.breaker.state ≠ .closed) (ha : after.state ≠ .closed)
    (hcalls : after.calls = s.breaker.calls) (hfails : after.failures = s.breaker.failures)
    (hs : after.windowStart = s.breaker.windowStart) : Accounted (s.enter after what) :=
  accounted_quiet h (by simp [Entry.counts, hb])
    (by simp [Entry.restarts, Entry.closes, Entry.rolls, hb, ha]) hcalls hfails hs

/-- The window after an entry at which a closed breaker looks at it. -/
theorem window_looked (hstate : s.breaker.state = .closed) (hlook : what.isIgnored = false) :
    (s.enter after what).window = (if what.isOutcome then [s.entry after what] else []) ++
      if s.breaker.windowStart + s.breaker.config.rollingWindow.nanos ≤ s.time then [] else s.window := by
  have hc : (s.entry after what).counts = what.isOutcome := by
    simp [Entry.counts, hstate]
  have hr : (s.entry after what).restarts =
      decide (s.breaker.windowStart + s.breaker.config.rollingWindow.nanos ≤ s.time) := by
    simp [Entry.restarts, Entry.closes, Entry.rolls, hstate, hlook]
  rw [window_enter, hc, hr]
  simp only [decide_eq_true_eq]

end Enter

theorem accounted_answer {s : Session} {after : Breaker} {what : Happening} {answer : Option Bool}
    (h : Accounted s) (ha : Answer s.breaker s.time answer after)
    (hout : what.isOutcome = false) (hlook : what.isIgnored = false) : Accounted (s.enter after what) := by
  cases ha with
  | closed hs =>
    -- the only answer that looks at the window
    refine h.enter ?_ (windowStart_rollWindow_le h.begun)
    rw [window_looked hs hlook, hout]
    exact h.tallies.rollWindow h.begun
  | asleep hs => exact accounted_idle h (by simp [hs]) (by simp [hs]) rfl rfl rfl
  | woken hs => exact accounted_idle h (by simp [hs]) (by simp) rfl rfl rfl
  | trial hs => exact accounted_idle h (by simp [hs]) (by simp [hs]) rfl rfl rfl
  | full hs => exact accounted_idle h (by simp [hs]) (by simp [hs]) rfl rfl rfl

/-- A failure recorded by a closed breaker: the counters, before they are compared with the
thresholds. -/
theorem tallies_failure {s : Session} (h : Accounted s) (hs : s.breaker.state = .closed) (ticket : Ticket)
    (after : Breaker) : Tallies (s.breaker.rollWindow s.time).countFailure
      (s.enter after (.ended ticket .failure)).window := by
  rw [window_looked hs rfl]
  exact (h.tallies.rollWindow h.begun).countFailure (windowStart_rollWindow_le h.begun)
    (by simp [Entry.countsFailure, Happening.isFailure, hs])

theorem accounted_effect {s : Session} {ticket : Ticket} {verdict : Verdict} {after : Breaker}
    (h : Accounted s) (he : Effect s.breaker s.time ticket.trial verdict after) :
    Accounted (s.enter after (.ended ticket verdict)) := by
  have hb : (s.breaker.rollWindow s.time).windowStart ≤ s.time := windowStart_rollWindow_le h.begun
  cases he with
  | succeeded hs =>
    refine h.enter ?_ hb
    rw [window_looked hs rfl]
    exact (h.tallies.rollWindow h.begun).countSuccess hb
      (by simp [Entry.countsFailure, Happening.isFailure])
  | failed hs => exact h.enter (tallies_failure h hs ticket _) hb
  | tripped hs => exact h.enter ((tallies_failure h hs ticket _).congr rfl rfl rfl) hb
  | closes hs =>
    -- closing restarts the window, and the success of a trial is not recorded in it
    refine h.enter ?_ (le_refl s.time)
    rw [window_enter]
    simpa [Entry.counts, Entry.restarts, Entry.closes, hs, close] using Tallies.nil rfl rfl
  | reopens hs => exact accounted_idle h (by simp [hs]) (by simp [trip]) rfl rfl rfl
  | released hs =>
    refine accounted_idle h (by simp [hs]) (by simp [hs]) ?_ ?_ ?_ <;> unfold releaseTrial <;> split <;> rfl
  | unchanged hi =>
    by_cases hs : s.breaker.state = .closed
    · -- a closed breaker takes no notice of an ignored outcome
      rw [hi hs]
      exact accounted_quiet h (by simp [Entry.counts, Happening.isOutcome])
        (by simp [Entry.restarts, Entry.closes, Entry.rolls, Happening.isIgnored, hs]) rfl rfl rfl
    · exact accounted_idle h hs hs rfl rfl rfl

theorem accounted_next {s s' : Session} {deed : Deed} (h : Accounted s) (hn : Session.Next s deed s') :
    Accounted s' := by
  cases hn with
  | @admitted trial after ha =>
    have : Accounted (s.enter after (.admitted (s.nextTicket trial after))) :=
      accounted_answer h ha rfl rfl
    exact ⟨this.tallies, this.begun, this.past⟩
  | rejected ha => exact accounted_answer h ha rfl rfl
  | ended _ he =>
    have := accounted_effect h he
    exact ⟨this.tallies, this.begun, this.past⟩
  | missing => exact h

theorem accounted_run (config : BreakerConfig) (now : Instant) (moves : List Move) :
    Accounted ((Session.start config now).run moves) :=
  Session.run_induction (fun _ wait h => accounted_pass h wait) (fun _ _ _ => accounted_next) moves _
    (accounted_start config now)

/-- The tally in natural numbers, as long as the counters have room. -/
theorem Tallies.toNat {b : Breaker} {w : List Entry} (h : Tallies b w) (few : w.length < UInt32.size) :
    b.calls.toNat = w.length ∧ b.failures.toNat = w.countP Entry.countsFailure := by
  have hle : w.countP Entry.countsFailure ≤ w.length := List.countP_le_length
  rw [h.calls, h.failures]
  exact ⟨UInt32.toNat_ofNat_of_lt few, UInt32.toNat_ofNat_of_lt (by omega)⟩

/-- When the window has just been looked at, its outcomes were all made less than a rolling window
ago, or at this very instant if the rolling window is empty. -/
theorem Accounted.recent {s : Session} (h : Accounted s)
    (hs : s.time < s.breaker.windowStart + s.breaker.config.rollingWindow.nanos ∨
      s.breaker.config.rollingWindow.nanos = 0 ∧ s.breaker.windowStart = s.time) :
    ∀ e ∈ s.window, e.time ≤ s.time ∧ (s.time < e.time + s.breaker.config.rollingWindow.nanos ∨
      s.breaker.config.rollingWindow.nanos = 0 ∧ e.time = s.time) := by
  intro e he
  have h1 := h.tallies.begun e he
  have h2 := h.past e he
  refine ⟨h2, ?_⟩
  rcases hs with hs | ⟨h0, hs⟩
  · left; lia
  · right; exact ⟨h0, le_antisymm h2 (hs ▸ h1)⟩

/-! ## Opening -/

/-- A closed breaker opens only by the report of a failure that brings its counters over both
thresholds. -/
theorem opens_by_failure {s : Session} {move : Move} (hs : s.breaker.state = .closed)
    (ho : (s.step move).breaker.state = .opened) :
    ∃ ticket, s.ticket? ticket.number = some ticket ∧ move.deed = .settle ticket.number .failure ∧
      (s.breaker.rollWindow (s.time + move.wait)).countFailure.overThreshold = true ∧
      (s.step move).breaker =
        (s.breaker.rollWindow (s.time + move.wait)).countFailure.trip (s.time + move.wait) := by
  have hn := s.step_next move
  generalize s.step move = next at ho hn ⊢
  generalize hd : move.deed = deed at hn ⊢
  -- the wait before the deed leaves the breaker as it is
  have hpass : (s.pass move.wait).breaker.state ≠ .opened := by simp [Session.pass, hs]
  cases hn with
  | admitted ha => exact absurd (ha.opened ho) hpass
  | rejected ha => exact absurd (ha.opened ho) hpass
  | @ended ticket verdict after ht he =>
    obtain ⟨rfl, hover, hb⟩ := he.opened hs ho
    exact ⟨ticket, ht, rfl, hover, hb⟩
  | missing => exact absurd ho hpass

/-- The counters of a closed breaker are exactly the outcomes recorded since its window was last
restarted, all of them made since the window began. A closed breaker becomes open only when a failure
is reported, with both counters at their thresholds and every counted outcome less than a rolling
window ago, or made at that very instant when the rolling window is empty. -/
theorem counts_window (config : BreakerConfig) (now : Instant) (moves : List Move) :
    let s := (Session.start config now).run moves
    (s.outcomes.length < UInt32.size → s.breaker.state = .closed →
      s.breaker.calls.toNat = s.window.length ∧
      s.breaker.failures.toNat = s.window.countP Entry.countsFailure ∧
      ∀ e ∈ s.window, s.breaker.windowStart ≤ e.time) ∧
    ∀ move : Move, let next := s.step move
      next.outcomes.length < UInt32.size → s.breaker.state = .closed → next.breaker.state = .opened →
        (∃ ticket, s.ticket? ticket.number = some ticket ∧ move.deed = .settle ticket.number .failure) ∧
        config.failureThreshold ≤ next.breaker.failures ∧ config.minimumCalls ≤ next.breaker.calls ∧
        next.breaker.failures.toNat = next.window.countP Entry.countsFailure ∧
        next.breaker.calls.toNat = next.window.length ∧
        ∀ e ∈ next.window, e.time ≤ next.time ∧
          (next.time < e.time + config.rollingWindow.nanos ∨
            config.rollingWindow.nanos = 0 ∧ e.time = next.time) := by
  intro s
  have hacc : Accounted s := accounted_run config now moves
  have hcfg : s.breaker.config = config := Session.run_config config now moves
  refine ⟨fun few _ => ?_, ?_⟩
  · obtain ⟨hc, hf⟩ := hacc.tallies.toNat ((length_window_le s).trans_lt few)
    exact ⟨hc, hf, hacc.tallies.begun⟩
  · intro move next few hs ho
    obtain ⟨ticket, ht, hd, hover, hb⟩ := opens_by_failure hs ho
    have hnext : Accounted next := accounted_next (accounted_pass hacc move.wait) (s.step_next move)
    obtain ⟨hc, hf⟩ := hnext.tallies.toNat ((length_window_le next).trans_lt few)
    have hthr : config.minimumCalls ≤ next.breaker.calls ∧
        config.failureThreshold ≤ next.breaker.failures := by
      rw [hb, ← hcfg]
      simpa [overThreshold, countFailure, trip] using hover
    -- opening leaves the window as the report has just rolled it
    have hnow := rollWindow_recent s.breaker (s.time + move.wait)
    have hstart : next.breaker.windowStart = (s.breaker.rollWindow (s.time + move.wait)).windowStart := by
      rw [hb]; rfl
    have hncfg : next.breaker.config = config := (s.step_config move).trans hcfg
    have hfresh := hnext.recent (by rw [hstart, hncfg, s.step_time move]; rwa [hcfg] at hnow)
    rw [hncfg] at hfresh
    exact ⟨⟨ticket, ht, hd⟩, hthr.2, hthr.1, hf, hc, hfresh⟩

/-- Three outcomes in one window, of which the last brings the failures to their threshold. -/
theorem counts_window_at_opening :
    let config : BreakerConfig := { BreakerConfig.default with failureThreshold := 2, minimumCalls := 3 }
    let moves : List Move :=
      [⟨0, .ask⟩, ⟨0, .ask⟩, ⟨0, .ask⟩, ⟨5, .settle 0 .success⟩, ⟨5, .settle 1 .failure⟩]
    let s := (Session.start config 0).run moves
    let next := s.step ⟨1000, .settle 2 .failure⟩
    s.breaker.state = .closed ∧ next.breaker.state = .opened ∧ next.window.length = 3 ∧
      s.breaker.calls.toNat = s.window.length ∧ next.breaker.calls.toNat = next.window.length := by
  have few : ∀ {w : List Entry} {n : Nat}, w.length = n → n ≤ 3 → w.length < UInt32.size :=
    fun hw hn => (hw.trans_le hn).trans_lt (by norm_num)
  refine ⟨by decide, by decide, by decide, ?_, ?_⟩
  · exact ((counts_window _ 0 _).1 (few (n := 2) (by decide) (by decide)) (by decide)).1
  · exact ((counts_window _ 0 _).2 _ (few (n := 3) (by decide) (by decide)) (by decide)
      (by decide)).2.2.2.2.1

end ResilientClient.Breaker
