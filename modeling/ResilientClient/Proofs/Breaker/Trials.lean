/-
The trials of a half-open breaker against the permits that are out: its counter of trials never
exceeds the trials of the current half-open period that have not been settled, and falls short of them
only by the places that trials of earlier periods gave back (`counted_run`). Where one trial is
admitted at a time, no trial outlives its period (`timely_run`).
-/
import ResilientClient.Proofs.Breaker.Session

namespace ResilientClient.Breaker

/-! ## Half-open periods -/

/-- The permit of a trial of this half-open period. -/
def Ticket.isTrialOf (ticket : Ticket) (period : Nat) : Bool := ticket.trial && ticket.period == period

/-- A half-open breaker takes back the place of a trial of an earlier period. -/
def Entry.isLateRelease (e : Entry) : Bool :=
  match e.what with
  | .ended ticket .ignored =>
    decide (e.before.state = .halfOpen) && ticket.trial && ticket.period != e.period
  | _ => false

namespace Session

/-- The trials of the current half-open period that have not been settled. -/
def openTrials (s : Session) : Nat := s.held.countP fun ticket => ticket.isTrialOf s.period

/-- How often a trial of an earlier period has given back a place in the current one. -/
def lateReleases (s : Session) : Nat := s.past.countP fun e => e.isLateRelease && e.period == s.period

section Period

variable {s : Session} {after : Breaker}

theorem periodAfter_of_halfOpen (h : s.breaker.state = .halfOpen) : s.periodAfter after = s.period := by
  unfold periodAfter; rw [if_neg]; exact fun hn => hn.1 h

theorem periodAfter_of_woken (h : s.breaker.state = .opened) (ha : after.state = .halfOpen) :
    s.periodAfter after = s.period + 1 := by
  unfold periodAfter; rw [if_pos]; exact ⟨by simp [h], ha⟩

theorem period_le_periodAfter (s : Session) (after : Breaker) : s.period ≤ s.periodAfter after := by
  unfold periodAfter; split <;> omega

end Period

end Session

/-- The half-open periods of permits and entries have begun. -/
structure Dated (s : Session) : Prop where
  held : ∀ ticket ∈ s.held, ticket.period ≤ s.period
  past : ∀ e ∈ s.past, e.period ≤ s.period

theorem dated_enter {s : Session} (h : Dated s) (after : Breaker) (what : Happening) :
    Dated (s.enter after what) := by
  have hle := s.period_le_periodAfter after
  refine ⟨fun ticket ht => (h.held ticket ht).trans hle, fun e he => ?_⟩
  rcases List.mem_cons.1 he with rfl | he
  · exact le_refl _
  · exact (h.past e he).trans hle

theorem dated_next {s s' : Session} {deed : Deed} (h : Dated s) (hn : Session.Next s deed s') :
    Dated s' := by
  cases hn with
  | @admitted trial after _ =>
    have he := dated_enter h after (.admitted (s.nextTicket trial after))
    refine ⟨fun ticket ht => ?_, he.past⟩
    rcases List.mem_cons.1 ht with rfl | ht
    · exact le_refl _
    · exact he.held ticket ht
  | rejected => exact dated_enter h _ _
  | @ended ticket verdict after =>
    have he := dated_enter h after (.ended ticket verdict)
    exact ⟨fun other ht => he.held other (List.mem_of_mem_erase ht), he.past⟩
  | missing => exact h

/-! ## Counting trials -/

section Count

variable {s : Session} {after : Breaker} {ticket : Ticket}

theorem openTrials_grant (hp : s.periodAfter after = s.period) (trial : Bool) :
    (s.grant trial after).openTrials = s.openTrials + if trial then 1 else 0 := by
  simp [Session.openTrials, Session.grant, Session.enter, Session.nextTicket, hp, List.countP_cons,
    Ticket.isTrialOf]

/-- The first trial of a period is the only one. -/
theorem openTrials_woken (h : Dated s) (hp : s.periodAfter after = s.period + 1) :
    (s.grant true after).openTrials = 1 := by
  have hnone : s.held.countP (fun ticket => ticket.isTrialOf (s.period + 1)) = 0 := by
    refine List.countP_eq_zero.2 fun ticket ht => ?_
    have := h.held ticket ht
    simp only [Ticket.isTrialOf, Bool.and_eq_true, beq_iff_eq]; omega
  show (s.nextTicket true after :: s.held).countP (fun ticket => ticket.isTrialOf (s.periodAfter after)) = 1
  rw [List.countP_cons_of_pos (by simp [Ticket.isTrialOf, Session.nextTicket]), hp, hnone]

theorem openTrials_conclude (hm : ticket ∈ s.held) (hp : s.periodAfter after = s.period)
    (verdict : Verdict) :
    (s.conclude ticket verdict after).openTrials =
      s.openTrials - if ticket.isTrialOf s.period then 1 else 0 := by
  simp [Session.openTrials, Session.conclude, Session.enter, hp, List.countP_erase, hm]

theorem lateReleases_enter {what : Happening} (hp : s.periodAfter after = s.period) :
    (s.enter after what).lateReleases =
      s.lateReleases + if (s.entry after what).isLateRelease then 1 else 0 := by
  simp [Session.lateReleases, Session.enter, hp, List.countP_cons]

end Count

/-- The trials of a half-open breaker are counted. -/
structure TrialsCounted (s : Session) : Prop where
  limit : s.breaker.trials.toNat ≤ s.breaker.config.trialLimit
  least : s.breaker.trials.toNat ≤ s.openTrials
  most : s.openTrials ≤ s.breaker.trials.toNat + s.lateReleases

theorem TrialsCounted.congr {s s' : Session} (h : TrialsCounted s) (hb : s'.breaker = s.breaker)
    (hopen : s'.openTrials = s.openTrials) (hlate : s'.lateReleases = s.lateReleases) :
    TrialsCounted s' := by
  refine ⟨?_, ?_, ?_⟩
  · rw [hb]; exact h.limit
  · rw [hb, hopen]; exact h.least
  · rw [hb, hopen, hlate]; exact h.most

section Next

variable {s s' : Session} {after : Breaker} {ticket : Ticket} {verdict : Verdict}

theorem counted_grant (h : TrialsCounted s) (hp : s.periodAfter after = s.period)
    (hlimit : after.trials.toNat ≤ after.config.trialLimit)
    (hsucc : after.trials.toNat = s.breaker.trials.toNat + 1) : TrialsCounted (s.grant true after) := by
  have hopen : (s.grant true after).openTrials = s.openTrials + 1 := openTrials_grant hp true
  have hlate : (s.grant true after).lateReleases = s.lateReleases := lateReleases_enter hp
  obtain ⟨-, hleast, hmost⟩ := h
  refine ⟨hlimit, ?_, ?_⟩ <;> show _ ≤ _ <;> rw [hopen]
  · show after.trials.toNat ≤ _; omega
  · show _ ≤ after.trials.toNat + _; omega

theorem counted_answer {trial : Bool} (hd : Dated s) (h : s.breaker.state = .halfOpen → TrialsCounted s)
    (ha : Answer s.breaker s.time (some trial) after) (hs : after.state = .halfOpen) :
    TrialsCounted (s.grant trial after) := by
  cases ha with
  | closed hc => rw [rollWindow_state, hc] at hs; cases hs
  | woken ho =>
    have hopen := openTrials_woken hd (Session.periodAfter_of_woken ho hs)
    exact ⟨trialLimit_pos s.breaker.config, hopen.ge, hopen.le.trans (Nat.le_add_right 1 _)⟩
  | trial hh hroom =>
    have hsucc := toNat_trials_succ hroom
    exact counted_grant (h hh) (Session.periodAfter_of_halfOpen hh) (hsucc.trans_le hroom) hsucc

/-- A trial that is given back leaves the count right, whatever its period. -/
theorem counted_release (h : TrialsCounted s) (hm : ticket ∈ s.held) (hs : s.breaker.state = .halfOpen)
    (ht : ticket.trial = true) : TrialsCounted (s.conclude ticket .ignored s.breaker.releaseTrial) := by
  have hp : s.periodAfter s.breaker.releaseTrial = s.period := Session.periodAfter_of_halfOpen hs
  have hopen := openTrials_conclude hm hp .ignored
  have hlate : (s.conclude ticket .ignored s.breaker.releaseTrial).lateReleases = s.lateReleases +
      if ticket.period != s.period then 1 else 0 := by
    refine (lateReleases_enter hp).trans ?_
    simp [Entry.isLateRelease, hs, ht, hp]
  have hfewer := toNat_trials_release hs
  obtain ⟨hlimit, hleast, hmost⟩ := h
  refine ⟨?_, ?_, ?_⟩
  · show s.breaker.releaseTrial.trials.toNat ≤ s.breaker.releaseTrial.config.trialLimit
    rw [releaseTrial_config]; omega
  · show s.breaker.releaseTrial.trials.toNat ≤ _
    rw [hopen, hfewer]; split <;> omega
  · show _ ≤ s.breaker.releaseTrial.trials.toNat + _
    rw [hopen, hlate, hfewer]
    -- a late trial was not among those that are out, so one more of them is now uncounted
    by_cases hown : ticket.period = s.period
    · simp [Ticket.isTrialOf, ht, hown]; omega
    · simp [Ticket.isTrialOf, ht, hown]; omega

theorem counted_effect (h : s.breaker.state = .halfOpen → TrialsCounted s) (hm : ticket ∈ s.held)
    (he : Effect s.breaker s.time ticket.trial verdict after) (hs : after.state = .halfOpen) :
    TrialsCounted (s.conclude ticket verdict after) := by
  obtain ⟨hh, ⟨ht, rfl, rfl⟩ | ⟨ht, rfl⟩⟩ := he.stays hs
  · exact counted_release (h hh) hm hh ht
  · have hp : s.periodAfter s.breaker = s.period := Session.periodAfter_of_halfOpen hh
    have hopen : (s.conclude ticket verdict s.breaker).openTrials = s.openTrials := by
      rw [openTrials_conclude hm hp, Ticket.isTrialOf, ht]; rfl
    have hlate : (s.conclude ticket verdict s.breaker).lateReleases = s.lateReleases := by
      refine (lateReleases_enter hp).trans ?_
      cases verdict <;> simp [Entry.isLateRelease, ht]
    exact (h hh).congr rfl hopen hlate

theorem counted_next {deed : Deed} (hd : Dated s) (h : s.breaker.state = .halfOpen → TrialsCounted s)
    (hn : Session.Next s deed s') (hs : s'.breaker.state = .halfOpen) : TrialsCounted s' := by
  cases hn with
  | admitted ha => exact counted_answer hd h ha hs
  | rejected ha =>
    cases ha with
    | asleep ho => rw [show s.breaker.state = .halfOpen from hs] at ho; cases ho
    | full hh =>
      have hp : s.periodAfter s.breaker = s.period := Session.periodAfter_of_halfOpen hh
      have hopen : (s.enter s.breaker .rejected).openTrials = s.openTrials := by
        simp only [Session.openTrials, Session.enter, hp]
      have hlate : (s.enter s.breaker .rejected).lateReleases = s.lateReleases := lateReleases_enter hp
      exact (h hh).congr rfl hopen hlate
  | ended ht he => exact counted_effect h (Session.ticket?_mem ht) he hs
  | missing => exact h hs

end Next

/-- Periods are dated, and while the breaker is half-open its trials are counted. -/
def Ordered (s : Session) : Prop := Dated s ∧ (s.breaker.state = .halfOpen → TrialsCounted s)

theorem ordered_start (config : BreakerConfig) (now : Instant) : Ordered (Session.start config now) :=
  ⟨⟨by simp [Session.start], by simp [Session.start]⟩, fun hs => by cases hs⟩

theorem ordered_pass {s : Session} (h : Ordered s) (wait : Nat) : Ordered (s.pass wait) :=
  ⟨⟨h.1.held, h.1.past⟩, fun hs => (h.2 hs).congr rfl rfl rfl⟩

theorem ordered_next {s s' : Session} {deed : Deed} (h : Ordered s) (hn : Session.Next s deed s') :
    Ordered s' :=
  ⟨dated_next h.1 hn, counted_next h.1 h.2 hn⟩

theorem counted_run (config : BreakerConfig) (now : Instant) (moves : List Move)
    (h : ((Session.start config now).run moves).breaker.state = .halfOpen) :
    TrialsCounted ((Session.start config now).run moves) :=
  (Session.run_induction (fun _ wait h => ordered_pass h wait) (fun _ _ _ => ordered_next) moves _
    (ordered_start config now)).2 h

/-! ## One trial at a time -/

/-- No trial has outlived its half-open period. -/
structure Timely (s : Session) : Prop where
  own : ∀ ticket ∈ s.held, ticket.trial = true →
    s.breaker.state = .halfOpen ∧ ticket.period = s.period
  past : ∀ e ∈ s.past, e.isLateRelease = false

theorem Timely.lateReleases {s : Session} (h : Timely s) : s.lateReleases = 0 :=
  List.countP_eq_zero.2 fun e he => by simp [h.past e he]

section Timely

variable {s s' : Session} {after : Breaker} {ticket : Ticket} {verdict : Verdict}

theorem timely_enter {what : Happening} (h : Timely s) (hl : (s.entry after what).isLateRelease = false) :
    ∀ e ∈ (s.enter after what).past, e.isLateRelease = false := by
  intro e he
  rcases List.mem_cons.1 he with rfl | he
  · exact hl
  · exact h.past e he

theorem timely_grant {trial : Bool} (h : Timely s)
    (ha : Answer s.breaker s.time (some trial) after) : Timely (s.grant trial after) := by
  refine ⟨fun ticket hm ht => ?_, timely_enter h rfl⟩
  rcases List.mem_cons.1 hm with rfl | hm
  · -- the new permit
    cases ha with
    | closed => cases ht
    | woken => exact ⟨rfl, rfl⟩
    | trial hh => exact ⟨hh, rfl⟩
  · obtain ⟨hh, hown⟩ := h.own ticket hm ht
    cases ha with
    | closed hc => rw [hh] at hc; cases hc
    | woken ho => rw [hh] at ho; cases ho
    | trial => exact ⟨hh, hown.trans (Session.periodAfter_of_halfOpen hh).symm⟩

theorem timely_reject (h : Timely s) (ha : Answer s.breaker s.time none after) :
    Timely (s.enter after .rejected) := by
  refine ⟨fun ticket hm ht => ?_, timely_enter h rfl⟩
  obtain ⟨hh, hown⟩ := h.own ticket hm ht
  have hafter : after = s.breaker := by cases ha <;> rfl
  exact ⟨hafter ▸ hh, hown.trans (Session.periodAfter_of_halfOpen hh).symm⟩

/-- With a single trial out, the report that ends a half-open period is the one of its last trial. -/
theorem timely_conclude (hone : s.breaker.config.trialLimit = 1)
    (hc : s.breaker.state = .halfOpen → TrialsCounted s) (h : Timely s) (hm : ticket ∈ s.held)
    (he : Effect s.breaker s.time ticket.trial verdict after) : Timely (s.conclude ticket verdict after) := by
  refine ⟨fun other ho ht => ?_, timely_enter h ?_⟩
  · obtain ⟨hh, hown⟩ := h.own other (List.mem_of_mem_erase ho) ht
    have hp : s.periodAfter after = s.period := Session.periodAfter_of_halfOpen hh
    refine ⟨by_contra fun hl => ?_, hown.trans hp.symm⟩
    obtain ⟨htrial, -⟩ := he.leaves hh hl
    -- the trial that was reported is the only one of its period, so the other cannot be out
    have hlast : (s.conclude ticket verdict after).openTrials = 0 := by
      rw [openTrials_conclude hm hp, Ticket.isTrialOf, htrial, (h.own ticket hm htrial).2]
      have hmost := (hc hh).most
      have hlimit := (hc hh).limit
      rw [h.lateReleases] at hmost
      simp; omega
    have hother := List.countP_eq_zero.1 hlast other ho
    simp [Ticket.isTrialOf, ht, hown, Session.conclude, Session.enter, hp] at hother
  · cases verdict with
    | success | failure => rfl
    | ignored =>
      cases ht : ticket.trial with
      | false => simp [Entry.isLateRelease, ht]
      | true =>
        obtain ⟨hh, hown⟩ := h.own ticket hm ht
        simp [Entry.isLateRelease, hown, Session.periodAfter_of_halfOpen hh]

theorem timely_next {deed : Deed} (hone : s.breaker.config.trialLimit = 1)
    (hc : s.breaker.state = .halfOpen → TrialsCounted s) (h : Timely s)
    (hn : Session.Next s deed s') : Timely s' := by
  cases hn with
  | admitted ha => exact timely_grant h ha
  | rejected ha => exact timely_reject h ha
  | ended ht he => exact timely_conclude hone hc h (Session.ticket?_mem ht) he
  | missing => exact h

end Timely

/-- Where one trial is admitted at a time, no trial ever outlives its half-open period. -/
theorem timely_run {config : BreakerConfig} (hone : config.trialLimit = 1) (now : Instant)
    (moves : List Move) : Timely ((Session.start config now).run moves) := by
  have hall := Session.run_induction
    (P := fun s => s.breaker.config = config ∧ Ordered s ∧ Timely s)
    (fun s wait ⟨hc, ho, ht⟩ => ⟨hc, ordered_pass ho wait, ⟨ht.own, ht.past⟩⟩)
    (fun s deed s' ⟨hc, ho, ht⟩ hn => ⟨(Session.next_config hn).trans hc, ordered_next ho hn,
      timely_next (hc ▸ hone) ho.2 ht hn⟩) moves (Session.start config now)
    ⟨rfl, ordered_start config now, ⟨by simp [Session.start], by simp [Session.start]⟩⟩
  exact hall.2.2

end ResilientClient.Breaker
