/-
An open circuit. From the moment at which a breaker opens until its sleep window is over, nothing that is
asked of it or reported to it changes it, and a service behind it gets no calls (`open_until_slept`).
-/
import ResilientClient.Proofs.Breaker.Admission
import ResilientClient.Proofs.Pipeline.Served

open ResilientClient.Fiber ResilientClient.Breaker

namespace ResilientClient.Pipeline

/-- A breaker that has been open for less than its sleep window rejects every request. -/
theorem acquire_of_openSince {config : BreakerConfig} {since : Instant} {s : Session}
    (h : OpenSince config since s) (ht : s.time < since + config.sleepWindow.nanos) :
    (s.breaker.acquire s.time).1 = none :=
  (acquire_eq_none_iff _ _).2 (.inl ⟨h.opened, h.not_sleptEnough ht⟩)

/-- A breaker that opens stays open, and asleep since then, through all that is asked and reported before
its sleep window is over: it rejects every request, and so does every guard over it. -/
theorem open_until_slept (config : BreakerConfig) (now : Instant) (moves : List Move) (move : Move)
    (later : List Move) :
    let before := (Session.start config now).run moves
    let opening := before.step move
    let s := opening.run later
    before.breaker.state ≠ .opened → opening.breaker.state = .opened →
    s.time < opening.time + config.sleepWindow.nanos →
    s.breaker.state = .opened ∧ s.breaker.openedAt = opening.time ∧
    (s.breaker.acquire s.time).1 = none ∧
    ∀ (ι φ : Type) (key : String) (limit : Option Duration) (fallback : Option (StandIn φ))
      (inner : Inside ι) (call : Call) (w w' : World (Sides ι φ))
      (ws : List (Write (World (Sides ι φ)))) (r : Outcome) (t : Instant),
      w.breakers.get? key = some s.breaker →
      Ends (guardingBoth key limit fallback inner call) s.time w ws r t w' →
      ∃ asked after, ws = asked :: after ∧ Rejected key fallback call s.time asked after r := by
  intro before opening s hbefore hopening ht
  have hcfg : before.breaker.config = config := Session.run_config config now moves
  have hsince : OpenSince config opening.time opening := openSince_of_opens hcfg move hbefore hopening
  have hasleep : OpenSince config opening.time s := asleep_run hsince later ht
  have hnone := acquire_of_openSince hasleep ht
  refine ⟨hasleep.opened, hasleep.openedAt, hnone, ?_⟩
  intro ι φ key limit fallback inner call w w' ws r t hw hends
  refine rejected_of_ends ?_ hends
  rw [BreakerRegistry.acquire_of_some hw, hnone]
  rfl

/-- A success that was on its way when the circuit opened does not close it again. -/
theorem open_until_slept_late_success :
    let config : BreakerConfig := { BreakerConfig.default with failureThreshold := 1, minimumCalls := 1 }
    let opening :=
      ((Session.start config 0).run [⟨0, .ask⟩, ⟨0, .ask⟩]).step ⟨0, .settle 0 .failure⟩
    let s := opening.run [⟨4000000000, .settle 1 .success⟩]
    let call : Call := ⟨⟨"Api#get()", "GET", .compile "/", [], [], [], none, none, none, .single⟩, [],
      .url "http://localhost", none⟩
    let inner : Inside Unit := fun _ => .done (.ok (.empty .ok))
    let w : World (Sides Unit Unit) := ⟨⟨[], (), [], (), []⟩, ⟨config, [("K", s.breaker)]⟩, []⟩
    s.breaker.state = .opened ∧ s.breaker.openedAt = opening.time ∧
      ∃ (asked : Write (World (Sides Unit Unit))) (after : List (Write (World (Sides Unit Unit)))),
        Rejected "K" none call s.time asked after ((guardingBoth "K" none none inner call).run s.time w).1 := by
  intro config opening s call inner w
  obtain ⟨hopened, hopenedAt, -, hguard⟩ := open_until_slept config 0 [⟨0, .ask⟩, ⟨0, .ask⟩]
    ⟨0, .settle 0 .failure⟩ [⟨4000000000, .settle 1 .success⟩] (by decide) (by decide) (by decide)
  obtain ⟨ws, hends⟩ := ends_run (guardingBoth "K" none none inner call) s.time w
  obtain ⟨asked, after, -, hrejected⟩ :=
    hguard Unit Unit "K" none none inner call w _ ws _ _ (by rfl) hends
  exact ⟨hopened, hopenedAt, asked, after, hrejected⟩

end ResilientClient.Pipeline
