/-
Rounds: calls that are asked for and at once reported, all at one instant. They bring the counters of
a new breaker to any number below the thresholds, and one more failure opens it; so a breaker opens
in some run exactly if it can keep counting (`opens_iff_canOpen`).
-/
import ResilientClient.Proofs.Breaker.Window

namespace ResilientClient

/-- A failure finds the thresholds within reach: the window lasts for some time, or one call is
enough. -/
def BreakerConfig.CanOpen (c : BreakerConfig) : Prop :=
  0 < c.rollingWindow.nanos ∨ c.failureThreshold.toNat ≤ 1 ∧ c.minimumCalls.toNat ≤ 1

instance (c : BreakerConfig) : Decidable c.CanOpen :=
  inferInstanceAs (Decidable (_ ∨ _ ∧ _))

/-- The failures, all at one instant, that open a new breaker. -/
def BreakerConfig.failuresToOpen (c : BreakerConfig) : Nat :=
  max (max c.failureThreshold.toNat c.minimumCalls.toNat) 1

namespace Breaker

/-! ## One round -/

/-- The first `n` rounds of a session. -/
def rounds (verdict : Verdict) : Nat → List Move
  | 0 => []
  | n + 1 => rounds verdict n ++ [⟨0, .ask⟩, ⟨0, .settle n verdict⟩]

/-- The breaker is closed with a window that is not over, and no permit is out. -/
structure AtRest (s : Session) : Prop where
  closed : s.breaker.state = .closed
  fresh : s.breaker.rollWindow s.time = s.breaker
  held : s.held = []

/-- A round at rest reports its outcome to the breaker and leaves no permit behind. -/
theorem round_run {s : Session} (h : AtRest s) (v : Verdict) :
    s.run [⟨0, .ask⟩, ⟨0, .settle s.issued v⟩] =
      (s.grant false s.breaker).conclude (s.nextTicket false s.breaker) v
        (s.breaker.report s.time false v).1 := by
  have hask : s.step ⟨0, .ask⟩ = s.grant false s.breaker := by
    show s.ask = _
    rw [Session.ask_of_closed h.closed, h.fresh]
  rw [Session.run_cons, hask]
  show (s.grant false s.breaker).settle s.issued v = _
  rw [Session.settle_of_ticket v (Session.ticket?_grant s false s.breaker)]
  rfl

theorem held_round {s : Session} (h : AtRest s) (v : Verdict) (after : Breaker) :
    ((s.grant false s.breaker).conclude (s.nextTicket false s.breaker) v after).held = [] := by
  simp [Session.conclude, Session.grant, h.held]

/-! ## Any number of rounds -/

/-- Rounds take a new breaker through `b 0`, `b 1`, …, as long as each is closed with a window that is
not over and reporting an outcome to it makes the next. -/
theorem rounds_run {config : BreakerConfig} (now : Instant) (v : Verdict) {b : Nat → Breaker}
    (h0 : b 0 = Breaker.create config now) : ∀ n,
    (∀ k < n, (b k).state = .closed ∧ (b k).rollWindow now = b k ∧
      ((b k).report now false v).1 = b (k + 1)) →
    let s := (Session.start config now).run (rounds v n)
    s.breaker = b n ∧ s.held = [] ∧ s.issued = n ∧ s.time = now
  | 0, _ => ⟨h0.symm, rfl, rfl, rfl⟩
  | n + 1, h => by
    obtain ⟨hb, hh, hi, ht⟩ := rounds_run now v h0 n fun k hk => h k (by omega)
    obtain ⟨hc, hw, hr⟩ := h n (by omega)
    rw [rounds, Session.run_append]
    -- what the earlier rounds were does not matter any more, only where they lead
    generalize (Session.start config now).run (rounds v n) = s at hb hh hi ht ⊢
    have hrest : AtRest s := ⟨hb ▸ hc, by rw [hb, ht]; exact hw, hh⟩
    subst hi
    rw [round_run hrest v]
    exact ⟨by rw [hb, ht]; exact hr, held_round hrest v _, rfl, ht⟩

/-- A new breaker that has counted some outcomes, all at its first instant. -/
def counted (config : BreakerConfig) (now : Instant) (calls failures : Nat) : Breaker :=
  { Breaker.create config now with calls := UInt32.ofNat calls, failures := UInt32.ofNat failures }

section Counted

variable {config : BreakerConfig} {now : Instant} {calls failures : Nat}

theorem counted_zero : counted config now 0 0 = Breaker.create config now := rfl

/-- The first window lasts until its length is over. -/
theorem rollWindow_counted_of_lt {t : Instant} (hle : now ≤ t) (h : t < now + config.rollingWindow.nanos) :
    (counted config now calls failures).rollWindow t = counted config now calls failures :=
  rollWindow_of_lt h hle

theorem rollWindow_counted (h : 0 < config.rollingWindow.nanos) :
    (counted config now calls failures).rollWindow now = counted config now calls failures :=
  rollWindow_counted_of_lt (le_refl now) (Nat.lt_add_of_pos_right h)

theorem rollWindow_create : (Breaker.create config now).rollWindow now = Breaker.create config now := by
  unfold rollWindow; split <;> rfl

theorem countSuccess_counted :
    (counted config now calls failures).countSuccess = counted config now (calls + 1) failures := by
  simp only [countSuccess, counted, ofNat_succ]

theorem countFailure_counted :
    (counted config now calls failures).countFailure = counted config now (calls + 1) (failures + 1) := by
  simp only [countFailure, counted, ofNat_succ]

theorem overThreshold_counted (hc : calls < UInt32.size) (hf : failures < UInt32.size) :
    (counted config now calls failures).overThreshold = true ↔
      config.minimumCalls.toNat ≤ calls ∧ config.failureThreshold.toNat ≤ failures := by
  simp only [overThreshold, counted, Breaker.create, Bool.and_eq_true, decide_eq_true_eq,
    UInt32.le_iff_toNat_le, UInt32.toNat_ofNat_of_lt' hc, UInt32.toNat_ofNat_of_lt' hf]

/-- A failure in the first window is counted, and it opens the breaker if it reaches the thresholds. -/
theorem report_failure_counted {t : Instant} (hle : now ≤ t) (hlt : t < now + config.rollingWindow.nanos)
    (hcalls : calls + 1 < UInt32.size) (hfailures : failures + 1 < UInt32.size) (trial : Bool) :
    ((counted config now calls failures).report t trial .failure).1 =
      if config.minimumCalls.toNat ≤ calls + 1 ∧ config.failureThreshold.toNat ≤ failures + 1 then
        (counted config now (calls + 1) (failures + 1)).trip t
      else counted config now (calls + 1) (failures + 1) := by
  rw [report_failure_of_closed rfl, rollWindow_counted_of_lt hle hlt, countFailure_counted]
  simp only [overThreshold_counted hcalls hfailures]

end Counted

/-- Any number of successes, in 32 bits. -/
theorem successes_run {config : BreakerConfig} (h : 0 < config.rollingWindow.nanos) (now : Instant)
    (n : Nat) :
    let s := (Session.start config now).run (rounds .success n)
    s.breaker = counted config now n 0 ∧ s.held = [] ∧ s.issued = n ∧ s.time = now := by
  refine rounds_run now .success (b := fun k => counted config now k 0) rfl n fun k _ =>
    ⟨rfl, rollWindow_counted h, ?_⟩
  rw [report_success_of_closed rfl, rollWindow_counted h, countSuccess_counted]

/-! ## Opening -/

theorem failuresToOpen_lt (c : BreakerConfig) : c.failuresToOpen < UInt32.size := by
  have h1 := c.failureThreshold.toNat_lt_size
  have h2 := c.minimumCalls.toNat_lt_size
  unfold BreakerConfig.failuresToOpen UInt32.size at *; omega

/-- Fewer failures leave a new breaker closed. -/
theorem failures_run {config : BreakerConfig} (h : 0 < config.rollingWindow.nanos) (now : Instant)
    {n : Nat} (hn : n < config.failuresToOpen) :
    let s := (Session.start config now).run (rounds .failure n)
    s.breaker = counted config now n n ∧ s.held = [] ∧ s.issued = n ∧ s.time = now := by
  refine rounds_run now .failure (b := fun k => counted config now k k) rfl n fun k hk =>
    ⟨rfl, rollWindow_counted h, ?_⟩
  have hlt := failuresToOpen_lt config
  rw [report_failure_counted (le_refl now) (Nat.lt_add_of_pos_right h) (by omega) (by omega), if_neg]
  unfold BreakerConfig.failuresToOpen at hn; omega

/-- The last failure opens the breaker at once, with no permit out. -/
theorem opened_run {config : BreakerConfig} (h : config.CanOpen) (now : Instant) :
    let s := (Session.start config now).run (rounds .failure config.failuresToOpen)
    s.breaker.state = .opened ∧ s.breaker.openedAt = now ∧ s.held = [] ∧ s.time = now := by
  have hlt := failuresToOpen_lt config
  obtain ⟨n, hn⟩ : ∃ n, config.failuresToOpen = n + 1 :=
    ⟨config.failuresToOpen - 1, by unfold BreakerConfig.failuresToOpen; omega⟩
  -- an empty window holds one outcome, which is then enough
  have hbefore : let s := (Session.start config now).run (rounds .failure n)
      s.breaker = counted config now n n ∧ s.held = [] ∧ s.issued = n ∧ s.time = now := by
    rcases Nat.eq_zero_or_pos n with rfl | hpos
    · exact ⟨rfl, rfl, rfl, rfl⟩
    · refine failures_run (h.resolve_right fun ⟨h1, h2⟩ => ?_) now (by omega)
      unfold BreakerConfig.failuresToOpen at hn; omega
  have hroll : (counted config now n n).rollWindow now = counted config now n n := by
    rcases h with h | ⟨h1, h2⟩
    · exact rollWindow_counted h
    · have : n = 0 := by unfold BreakerConfig.failuresToOpen at hn; omega
      subst this; exact rollWindow_create
  obtain ⟨hb, hh, hi, ht⟩ := hbefore
  rw [hn, rounds, Session.run_append]
  generalize (Session.start config now).run (rounds .failure n) = s at hb hh hi ht ⊢
  subst hi
  have hrest : AtRest s := ⟨by rw [hb]; rfl, by rw [hb, ht]; exact hroll, hh⟩
  have hover : (counted config now (s.issued + 1) (s.issued + 1)).overThreshold = true := by
    rw [overThreshold_counted (by omega) (by omega)]
    unfold BreakerConfig.failuresToOpen at hn; omega
  have hafter : (s.breaker.report s.time false .failure).1 =
      (counted config now (s.issued + 1) (s.issued + 1)).trip now := by
    rw [hb, ht, report_failure_of_closed rfl, hroll, countFailure_counted, if_pos hover]
  rw [round_run hrest .failure, hafter]
  exact ⟨rfl, rfl, held_round hrest .failure _, ht⟩

/-- An empty window is over at every failure, so that it holds this one alone. -/
theorem overThreshold_of_empty {b : Breaker} {t : Instant} (h : b.config.rollingWindow.nanos = 0)
    (hover : (b.rollWindow t).countFailure.overThreshold = true) :
    b.config.failureThreshold.toNat ≤ 1 ∧ b.config.minimumCalls.toNat ≤ 1 := by
  rw [rollWindow, if_pos (by omega)] at hover
  simpa [overThreshold, countFailure, UInt32.le_iff_toNat_le, and_comm] using hover

/-- A breaker that cannot keep counting stays closed. -/
theorem closed_run {config : BreakerConfig} (h : ¬ config.CanOpen) (now : Instant) (moves : List Move) :
    ((Session.start config now).run moves).breaker.state = .closed := by
  suffices hall : let s := (Session.start config now).run moves
      s.breaker.config = config ∧ s.breaker.state = .closed from hall.2
  refine Session.run_induction (P := fun s => s.breaker.config = config ∧ s.breaker.state = .closed)
    (fun _ _ hs => hs) (fun s deed s' hs hn => ?_) moves _ ⟨rfl, rfl⟩
  obtain ⟨hc, hs⟩ := hs
  cases hn with
  | admitted ha =>
    refine ⟨ha.config.trans hc, ?_⟩
    cases ha with
    | closed => exact (rollWindow_state ..).trans hs
    | woken ho | trial ho => rw [hs] at ho; cases ho
  | rejected ha => exact ⟨ha.config.trans hc, by cases ha <;> exact hs⟩
  | ended _ he =>
    refine ⟨he.config.trans hc, ?_⟩
    cases he with
    | succeeded | failed => exact (rollWindow_state ..).trans hs
    | tripped _ hover =>
      have hlimits := overThreshold_of_empty (by unfold BreakerConfig.CanOpen at h; rw [hc]; omega) hover
      rw [hc] at hlimits
      exact absurd (.inr hlimits) h
    | closes ho | reopens ho | released ho => rw [hs] at ho; cases ho
    | unchanged => exact hs
  | missing => exact ⟨hc, hs⟩

/-- A breaker opens in some run exactly if its thresholds are within reach. -/
theorem opens_iff_canOpen (config : BreakerConfig) (now : Instant) :
    (∃ moves, ((Session.start config now).run moves).breaker.state = .opened) ↔ config.CanOpen := by
  constructor
  · rintro ⟨moves, ho⟩
    by_contra h
    rw [closed_run h now moves] at ho; cases ho
  · intro h
    exact ⟨_, (opened_run h now).1⟩

end Breaker

end ResilientClient
