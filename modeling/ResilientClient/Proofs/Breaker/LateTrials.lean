/-
Trials that outlive their half-open period. A permit does not say which period it was given out in, so
a half-open breaker takes the report of an earlier trial for one of its own: it gives a place back for
it, and it closes or opens on its outcome. Both can happen exactly if the breaker can open and admits
two trials at a time (`exists_overlap`).
-/
import ResilientClient.Proofs.Breaker.Rounds
import ResilientClient.Proofs.Breaker.Trials

namespace ResilientClient

namespace Breaker

/-! ## Where a session stands -/

/-- A session without its record. -/
structure Stands (s : Session) (b : Breaker) (time : Instant) (period issued : Nat)
    (held : List Ticket) : Prop where
  breaker : s.breaker = b
  time : s.time = time
  period : s.period = period
  issued : s.issued = issued
  held : s.held = held

namespace Stands

variable {s : Session} {b : Breaker} {t : Instant} {p i : Nat} {held : List Ticket}

/-- The first request after the sleep window begins a half-open period. -/
theorem wakes (h : Stands s b t p i held) (hs : b.state = .opened) (wait : Nat)
    (hw : b.openedAt + b.config.sleepWindow.nanos ≤ t + wait) :
    Stands (s.step ⟨wait, .ask⟩) { b with state := .halfOpen, trials := 1 } (t + wait) (p + 1) (i + 1)
      (⟨i, true, p + 1⟩ :: held) := by
  obtain ⟨rfl, rfl, rfl, rfl, rfl⟩ := h
  have hslept : (s.pass wait).breaker.sleptEnough (s.pass wait).time = true :=
    decide_eq_true (by simp only [Session.pass]; lia)
  have hp : (s.pass wait).periodAfter { s.breaker with state := .halfOpen, trials := 1 } =
      s.period + 1 := Session.periodAfter_of_woken hs rfl
  have hstep : s.step ⟨wait, .ask⟩ =
      (s.pass wait).grant true { s.breaker with state := .halfOpen, trials := 1 } :=
    Session.ask_of_slept hs hslept
  rw [hstep]
  exact ⟨rfl, rfl, hp, rfl, by simp only [Session.grant, Session.nextTicket, hp]; rfl⟩

/-- While there is room, a request starts one more trial. -/
theorem tries (h : Stands s b t p i held) (hs : b.state = .halfOpen)
    (hr : b.trials.toNat < b.config.trialLimit) :
    Stands (s.step ⟨0, .ask⟩) { b with trials := b.trials + 1 } t p (i + 1) (⟨i, true, p⟩ :: held) := by
  obtain ⟨rfl, rfl, rfl, rfl, rfl⟩ := h
  have hp : s.periodAfter { s.breaker with trials := s.breaker.trials + 1 } = s.period :=
    Session.periodAfter_of_halfOpen hs
  have hstep : s.step ⟨0, .ask⟩ = s.grant true { s.breaker with trials := s.breaker.trials + 1 } :=
    Session.ask_of_room hs hr
  rw [hstep]
  exact ⟨rfl, rfl, hp, rfl, by simp only [Session.grant, Session.nextTicket, hp]⟩

theorem settles (h : Stands s b t p i held) (hs : b.state = .halfOpen) {ticket : Ticket} {number : Nat}
    (ht : held.find? (fun ticket => ticket.number == number) = some ticket) (v : Verdict) :
    Stands (s.step ⟨0, .settle number v⟩) (b.report t ticket.trial v).1 t p i (held.erase ticket) := by
  obtain ⟨rfl, rfl, rfl, rfl, rfl⟩ := h
  have hstep : s.step ⟨0, .settle number v⟩ =
      s.conclude ticket v (s.breaker.report s.time ticket.trial v).1 :=
    Session.settle_of_ticket v ht
  rw [hstep]
  exact ⟨rfl, rfl, Session.periodAfter_of_halfOpen hs, rfl, rfl⟩

end Stands

/-! ## A trial that is left over -/

/-- One trial is out that the half-open breaker has counted, and one of an earlier period. -/
structure Overlap (s : Session) (late : Ticket) : Prop where
  halfOpen : s.breaker.state = .halfOpen
  trials : s.breaker.trials = 1
  openTrials : s.openTrials = 1
  found : s.ticket? late.number = some late
  trial : late.trial = true
  earlier : late.period ≠ s.period

/-- Two trials are admitted; one of them fails, and the other is still out when the breaker is half-open
again. -/
def overlapMoves (config : BreakerConfig) (number : Nat) : List Move :=
  [⟨config.sleepWindow.nanos, .ask⟩, ⟨0, .ask⟩, ⟨0, .settle number .failure⟩,
    ⟨config.sleepWindow.nanos, .ask⟩]

theorem overlap_run {s : Session} {b : Breaker} {t : Instant} {p i : Nat} (h : Stands s b t p i [])
    (hs : b.state = .opened) (hat : b.openedAt = t) (h2 : 2 ≤ b.config.trialLimit) :
    Overlap (s.run (overlapMoves b.config i)) ⟨i + 1, true, p + 1⟩ := by
  have hfind : [(⟨i + 1, true, p + 1⟩ : Ticket), ⟨i, true, p + 1⟩].find? (fun k => k.number == i) =
      some ⟨i, true, p + 1⟩ := by simp
  have herase : [(⟨i + 1, true, p + 1⟩ : Ticket), ⟨i, true, p + 1⟩].erase ⟨i, true, p + 1⟩ =
      [⟨i + 1, true, p + 1⟩] := by simp
  have hboth := (h.wakes hs b.config.sleepWindow.nanos (by lia)).tries rfl h2
  -- the failure opens the breaker, which forgets how many trials are out
  have hfailed := hboth.settles rfl hfind .failure
  rw [herase] at hfailed
  obtain ⟨hb, -, hp, -, hh⟩ := hfailed.wakes rfl b.config.sleepWindow.nanos (le_refl _)
  rw [overlapMoves, Session.run_cons, Session.run_cons, Session.run_cons, Session.run_cons,
    Session.run_nil]
  generalize Session.step _ _ = s' at hb hp hh ⊢
  refine ⟨?_, ?_, ?_, ?_, rfl, ?_⟩
  · rw [hb]
  · rw [hb]
  · rw [Session.openTrials, hh, hp]; simp [Ticket.isTrialOf]
  · simp [Session.ticket?, hh]
  · rw [hp]; simp

/-- Where two trials are admitted at a time, every breaker that can open has a run that leaves a trial
over. -/
theorem exists_overlap {config : BreakerConfig} (h2 : 2 ≤ config.trialLimit) (h : config.CanOpen)
    (now : Instant) : ∃ moves late, Overlap ((Session.start config now).run moves) late := by
  obtain ⟨ho, hat, hh, ht⟩ := opened_run h now
  have hc := Session.run_config config now (rounds .failure config.failuresToOpen)
  generalize hs : (Session.start config now).run (rounds .failure config.failuresToOpen) = s
    at ho hat hh ht hc
  have hover := overlap_run ⟨rfl, ht, rfl, rfl, hh⟩ ho hat (hc ▸ h2)
  rw [hc, ← hs, ← Session.run_append] at hover
  exact ⟨_, _, hover⟩

/-! ## Places given back -/

/-- A late trial that is dropped gives a place back that it does not hold. -/
theorem Overlap.release {s : Session} {late : Ticket} (h : Overlap s late) :
    let s' := s.step ⟨0, .settle late.number .ignored⟩
    s'.breaker.state = .halfOpen ∧ s'.breaker.trials = 0 ∧ s'.openTrials = 1 := by
  intro s'
  have hs' : s' = s.conclude late .ignored (s.breaker.report s.time late.trial .ignored).1 :=
    Session.settle_of_ticket .ignored h.found
  have hb : (s.breaker.report s.time late.trial .ignored).1 = s.breaker.releaseTrial := by
    rw [h.trial]; rfl
  rw [hs', hb]
  refine ⟨(releaseTrial_state _).trans h.halfOpen, ?_, ?_⟩
  · show s.breaker.releaseTrial.trials = 0
    rw [releaseTrial, if_pos h.halfOpen, h.trials]; rfl
  · rw [openTrials_conclude (Session.ticket?_mem h.found) (Session.periodAfter_of_halfOpen h.halfOpen),
      h.openTrials, Ticket.isTrialOf, beq_false_of_ne h.earlier, Bool.and_false]
    rfl

/-- While there is room, requests that follow each other are all admitted as trials. -/
theorem asks_run : ∀ (n : Nat) {s : Session}, s.breaker.state = .halfOpen →
    s.breaker.trials.toNat + n ≤ s.breaker.config.trialLimit →
    let s' := s.run (List.replicate n ⟨0, .ask⟩)
    s'.breaker.state = .halfOpen ∧ s'.openTrials = s.openTrials + n
  | 0, _, hs, _ => ⟨hs, rfl⟩
  | n + 1, s, hs, hr => by
    have hroom : s.breaker.trials.toNat < s.breaker.config.trialLimit := by omega
    have hstep : s.step ⟨0, .ask⟩ = s.grant true { s.breaker with trials := s.breaker.trials + 1 } :=
      Session.ask_of_room hs hroom
    have hopen : (s.step ⟨0, .ask⟩).openTrials = s.openTrials + 1 := by
      rw [hstep]; exact openTrials_grant (Session.periodAfter_of_halfOpen hs) true
    have ih := asks_run n (s := s.step ⟨0, .ask⟩) (by rw [hstep]; exact hs) (by
      rw [hstep]
      show (s.breaker.trials + 1).toNat + n ≤ _
      rw [toNat_trials_succ hroom]
      show _ ≤ s.breaker.config.trialLimit
      omega)
    rw [List.replicate_succ, Session.run_cons]
    refine ⟨ih.1, ih.2.trans ?_⟩
    rw [hopen]; omega

/-- At most as many trials are out as are admitted at a time, in all runs, exactly if a breaker admits
one at a time or cannot open; in general there is one more for each place that a trial of an earlier
half-open period gave back. -/
theorem open_trials_le_iff (config : BreakerConfig) (now : Instant) :
    ((∀ moves : List Move, let s := (Session.start config now).run moves
        s.breaker.state = .halfOpen → s.openTrials ≤ config.trialLimit) ↔
      config.trialLimit = 1 ∨ ¬ config.CanOpen) ∧
    ∀ moves : List Move, let s := (Session.start config now).run moves
      s.breaker.state = .halfOpen → s.openTrials ≤ config.trialLimit + s.lateReleases := by
  have hall : ∀ moves : List Move, let s := (Session.start config now).run moves
      s.breaker.state = .halfOpen → s.openTrials ≤ config.trialLimit + s.lateReleases := by
    intro moves s hs
    have hc : s.breaker.config = config := Session.run_config config now moves
    have hcount : TrialsCounted s := counted_run config now moves hs
    have hlimit := hcount.limit
    rw [hc] at hlimit
    exact hcount.most.trans (Nat.add_le_add_right hlimit _)
  refine ⟨⟨fun h => ?_, fun h => ?_⟩, hall⟩
  · by_contra hnot
    rw [not_or, not_not] at hnot
    have hpos := trialLimit_pos config
    obtain ⟨moves, late, hover⟩ := exists_overlap (by omega) hnot.2 now
    obtain ⟨hs, htrials, hopen⟩ := hover.release
    -- the late trial is dropped, and then as many trials are admitted as at the start
    let more : List Move :=
      ⟨0, .settle late.number .ignored⟩ :: List.replicate config.trialLimit ⟨0, .ask⟩
    have hc := Session.run_config config now moves
    have hasks := asks_run config.trialLimit hs (by
      rw [htrials, Session.step_config, hc]; exact (Nat.zero_add _).le)
    have hle := h (moves ++ more)
    rw [Session.run_append] at hle
    have hfalse := hle hasks.1
    rw [Session.run_cons, hasks.2] at hfalse
    omega
  · intro moves s hs
    rcases h with hone | hnever
    · have hlate := (timely_run hone now moves).lateReleases
      have hle := hall moves hs
      rwa [hlate] at hle
    · have hclosed : s.breaker.state = .closed := closed_run hnever now moves
      rw [hclosed] at hs; cases hs

/-- Three trials are out where two are admitted at a time: the first period's second trial is dropped in
the second period, after one trial of its own. -/
theorem late_release_admits_three :
    let config : BreakerConfig :=
      { BreakerConfig.default with failureThreshold := 1, minimumCalls := 1, halfOpenMaxCalls := 2 }
    let s := (Session.start config 0).run [⟨0, .ask⟩, ⟨0, .settle 0 .failure⟩,
      ⟨5000000000, .ask⟩, ⟨0, .ask⟩, ⟨0, .settle 1 .failure⟩,
      ⟨5000000000, .ask⟩, ⟨0, .ask⟩, ⟨0, .settle 2 .ignored⟩, ⟨0, .ask⟩]
    config.trialLimit = 2 ∧ s.breaker.state = .halfOpen ∧ s.openTrials = 3 := by
  decide

/-! ## Outcomes taken for another period's -/

/-- The move reports the success or the failure of a trial. -/
def Session.Decides (s : Session) (move : Move) (ticket : Ticket) : Prop :=
  s.ticket? ticket.number = some ticket ∧ ticket.trial = true ∧
    (move.deed = .settle ticket.number .success ∨ move.deed = .settle ticket.number .failure)

/-- The permit of a trial whose half-open period is over. -/
def Session.Late (s : Session) (ticket : Ticket) : Prop :=
  ticket.trial = true ∧ ¬ (s.breaker.state = .halfOpen ∧ ticket.period = s.period)

/-- Only a trial of the current half-open period ends it, and no late trial changes the state. -/
structure EndsByOwn (s : Session) : Prop where
  leaves : ∀ move, s.breaker.state = .halfOpen → (s.step move).breaker.state ≠ .halfOpen →
    ∃ ticket, s.Decides move ticket ∧ ticket.period = s.period
  late : ∀ ticket wait verdict, s.ticket? ticket.number = some ticket → s.Late ticket →
    (s.step ⟨wait, .settle ticket.number verdict⟩).breaker.state = s.breaker.state

/-- A half-open period ends exactly with the success or the failure of a trial, of whatever period. -/
theorem leaves_iff {s : Session} (hs : s.breaker.state = .halfOpen) (move : Move) :
    (s.step move).breaker.state ≠ .halfOpen ↔ ∃ ticket, s.Decides move ticket := by
  constructor
  · intro hl
    have hn := s.step_next move
    generalize s.step move = next at hl hn
    generalize hd : move.deed = deed at hn
    cases hn with
    | admitted ha => exact absurd (ha.stays hs) hl
    | rejected ha => exact absurd (ha.stays hs) hl
    | @ended ticket verdict after ht he =>
      obtain ⟨htrial, ⟨rfl, -⟩ | ⟨rfl, -⟩⟩ := he.leaves hs hl
      · exact ⟨ticket, ht, htrial, .inl hd⟩
      · exact ⟨ticket, ht, htrial, .inr hd⟩
    | missing => exact absurd hs hl
  · rintro ⟨ticket, ht, htrial, hd⟩
    obtain ⟨wait, deed⟩ := move
    rcases hd with rfl | rfl
    · rw [s.step_settle wait .success ht, htrial, report_success_of_halfOpen hs]
      simp [Session.conclude, Session.enter, close]
    · rw [s.step_settle wait .failure ht, htrial, report_failure_of_halfOpen hs]
      simp [Session.conclude, Session.enter, trip]

/-- In all runs, half-open periods are ended by their own trials only, exactly if a breaker admits one
trial at a time or cannot open; in general the success or failure of any trial ends them. -/
theorem ends_by_own_iff (config : BreakerConfig) (now : Instant) :
    ((∀ moves : List Move, EndsByOwn ((Session.start config now).run moves)) ↔
      config.trialLimit = 1 ∨ ¬ config.CanOpen) ∧
    ∀ (moves : List Move) (move : Move), let s := (Session.start config now).run moves
      s.breaker.state = .halfOpen →
        ((s.step move).breaker.state ≠ .halfOpen ↔ ∃ ticket, s.Decides move ticket) := by
  refine ⟨⟨fun h => ?_, fun h moves => ?_⟩, fun moves move hs => leaves_iff hs move⟩
  · by_contra hnot
    rw [not_or, not_not] at hnot
    have hpos := trialLimit_pos config
    obtain ⟨moves, late, hover⟩ := exists_overlap (by omega) hnot.2 now
    -- the success of the late trial closes the breaker
    have hsame := (h moves).late late 0 .success hover.found ⟨hover.trial, fun hc => hover.earlier hc.2⟩
    rw [hover.halfOpen] at hsame
    exact (leaves_iff hover.halfOpen _).2 ⟨late, hover.found, hover.trial, .inl rfl⟩ hsame
  · rcases h with hone | hnever
    · have htimely := timely_run hone now moves
      refine ⟨fun move hs hl => ?_, fun ticket wait verdict ht hlate => ?_⟩
      · obtain ⟨ticket, hd⟩ := (leaves_iff hs move).1 hl
        exact ⟨ticket, hd, (htimely.own ticket (Session.ticket?_mem hd.1) hd.2.1).2⟩
      · exact absurd (htimely.own ticket (Session.ticket?_mem ht) hlate.1) hlate.2
    · have hclosed := closed_run hnever now
      refine ⟨fun move hs => ?_, fun ticket wait verdict _ _ => ?_⟩
      · rw [hclosed moves] at hs; cases hs
      · have hnext := hclosed (moves ++ [⟨wait, .settle ticket.number verdict⟩])
        rw [Session.run_append, Session.run_cons, Session.run_nil] at hnext
        rw [hnext, hclosed moves]

/-- The second trial of the first half-open period ends the second period, whether it succeeds or
fails. -/
theorem late_outcome_ends_period :
    let config : BreakerConfig :=
      { BreakerConfig.default with failureThreshold := 1, minimumCalls := 1, halfOpenMaxCalls := 2 }
    let s := (Session.start config 0).run [⟨0, .ask⟩, ⟨0, .settle 0 .failure⟩,
      ⟨5000000000, .ask⟩, ⟨0, .ask⟩, ⟨0, .settle 1 .failure⟩,
      ⟨5000000000, .ask⟩]
    s.breaker.state = .halfOpen ∧ s.period = 2 ∧ s.ticket? 2 = some ⟨2, true, 1⟩ ∧
      (s.step ⟨0, .settle 2 .success⟩).breaker.state = .closed ∧
      (s.step ⟨0, .settle 2 .failure⟩).breaker.state = .opened := by
  decide

end Breaker

end ResilientClient
