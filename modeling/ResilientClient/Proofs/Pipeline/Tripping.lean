/-
How a breaker is tripped. On laps one after the other, through a breaker that nobody else uses, the failures of
the attempts are counted, wherever the laps belong to. So if all attempts fail, then as many of them are sent as
the thresholds say, and all later ones are rejected for as long as the breaker sleeps (`Relay.trips`). Attempts fail
in this way if all requests end in errors of the transport or in 5xx responses (`failing_of_broken`).
-/
import ResilientClient.Proofs.Breaker.Admission
import ResilientClient.Proofs.Breaker.Rounds
import ResilientClient.Proofs.Pipeline.Passage

open ResilientClient.Fiber ResilientClient.Breaker

namespace ResilientClient.Pipeline

variable {ε τ : Type}

/-! ## Attempts among laps -/

/-- The laps that are attempts. -/
def attemptLaps (laps : List (Lap ε)) : List (Lap ε) := laps.filter fun lap => lap.leg.outcome?.isSome

/-- The breaker of the key rejects the attempt. -/
structure Lap.Rejected (key : String) (lap : Lap ε) : Prop where
  unsent : sentIn lap.writes = []
  outcome : lap.leg.outcome? = some (.error (.circuitOpen key))

/-- The attempt comes to a request, and if that is sent, then the attempt fails in a way that counts against the
service. -/
structure Lap.Failing (interceptors : List Interceptor) (lap : Lap ε) : Prop where
  prepared : ∀ call o, lap.leg = .attempt call o → ∃ request, prepare interceptors call = .ok request
  failed : sentIn lap.writes ≠ [] → ∃ e, lap.leg.outcome? = some (.error e) ∧ isOwnFault e = false

section AttemptLaps

variable {lap : Lap ε} {laps more : List (Lap ε)}

@[simp] theorem attemptLaps_append : attemptLaps (laps ++ more) = attemptLaps laps ++ attemptLaps more :=
  List.filter_append ..

theorem attemptLaps_cons_of_none (h : lap.leg.outcome? = none) : attemptLaps (lap :: laps) = attemptLaps laps :=
  List.filter_cons_of_neg (by simp [h])

theorem attemptLaps_cons_of_some {o : Outcome} (h : lap.leg.outcome? = some o) :
    attemptLaps (lap :: laps) = lap :: attemptLaps laps :=
  List.filter_cons_of_pos (by simp [h])

theorem attempts_map_leg (laps : List (Lap ε)) : attempts (laps.map Lap.leg) = (attemptLaps laps).length := by
  unfold attempts outcomesOf attemptLaps
  rw [List.filterMap_map, List.length_filterMap_eq_countP, List.countP_eq_length_filter]
  rfl

theorem attempt_of_outcome? {leg : Leg} {o : Outcome} (h : leg.outcome? = some o) :
    ∃ call, leg = .attempt call o := by
  cases leg with
  | attempt call o' => cases h; exact ⟨call, rfl⟩
  | lookup | log | tell | rest => cases h

end AttemptLaps

/-! ## Laps one after the other -/

/-- Laps of which each begins when the one before has ended, or later, and finds a part of the state as that one
has left it. -/
inductive Relay (resolver : Option (Resolver ε)) (inner : Service ε) (part : World ε → τ) :
    List (Lap ε) → Instant → τ → Instant → τ → Prop
  | nil {t t' : Instant} {v : τ} : t ≤ t' → Relay resolver inner part [] t v t' v
  | cons {lap : Lap ε} {laps : List (Lap ε)} {t t' : Instant} {v v₁ v' : τ} {s s' : World ε} :
      t ≤ lap.start → lap.leg.Made resolver inner lap.start s lap.writes lap.stop s' →
      Carried part v lap.writes v₁ → Relay resolver inner part laps lap.stop v₁ t' v' →
      Relay resolver inner part (lap :: laps) t v t' v'

section Relays

variable {resolver : Option (Resolver ε)} {inner : Service ε} {part : World ε → τ} {laps more : List (Lap ε)}
  {t t₁ t' : Instant} {v v₁ v' : τ} {s s' : World ε} {ws : List (Write (World ε))}

theorem Leg.Made.time_le {leg : Leg} (h : leg.Made resolver inner t s ws t' s') : t ≤ t' := by
  cases leg with
  | attempt call o => exact Goes.time_le h
  | lookup service o => obtain ⟨look, -, hlookup⟩ := h; exact Goes.time_le hlookup
  | log line => exact Goes.time_le h
  | tell listeners event => exact Goes.time_le h
  | rest delay => exact Goes.time_le h

theorem Trip.time_le (h : Trip resolver inner laps t s t' s') : t ≤ t' := by
  induction h with
  | nil => exact Nat.le_refl _
  | cons hmade _ ih => exact Nat.le_trans hmade.time_le ih

theorem Trip.stop_le (h : Trip resolver inner laps t s t' s') {lap : Lap ε} (hmem : lap ∈ laps) : lap.stop ≤ t' := by
  induction h with
  | nil => exact absurd hmem List.not_mem_nil
  | cons _ htrip ih =>
    rcases List.mem_cons.1 hmem with rfl | hmem
    · exact htrip.time_le
    · exact ih hmem

/-- A relay can begin earlier. -/
theorem Relay.from_le (h : Relay resolver inner part laps t₁ v t' v') (hle : t ≤ t₁) :
    Relay resolver inner part laps t v t' v' := by
  cases h with
  | nil ht => exact .nil (Nat.le_trans hle ht)
  | cons hstart hmade hc hrest => exact .cons (Nat.le_trans hle hstart) hmade hc hrest

theorem Relay.append (h : Relay resolver inner part laps t v t₁ v₁)
    (h' : Relay resolver inner part more t₁ v₁ t' v') : Relay resolver inner part (laps ++ more) t v t' v' := by
  induction h with
  | nil ht => exact h'.from_le ht
  | cons hstart hmade hc _ ih => exact .cons hstart hmade hc (ih h')

/-- A trip during which nobody else changes the part. -/
theorem Trip.relay (h : Trip resolver inner laps t s t' s') :
    ∀ {v : τ}, Carried part v (laps.flatMap Lap.writes) v' → Relay resolver inner part laps t v t' v' := by
  induction h with
  | nil =>
    intro v hc
    obtain rfl := carried_nil.1 hc
    exact .nil (Nat.le_refl _)
  | cons hmade _ ih =>
    intro v hc
    obtain ⟨v₁, hfirst, hrest⟩ := carried_append.1 hc
    exact .cons (Nat.le_refl _) hmade hfirst (ih hrest)

/-- Only attempts send requests. -/
theorem Trip.flatMap_attemptLaps (h : Trip resolver inner laps t s t' s') :
    (laps.flatMap fun lap => sentIn lap.writes) = (attemptLaps laps).flatMap fun lap => sentIn lap.writes := by
  induction h with
  | nil => rfl
  | @cons leg laps t t₁ t' s s₁ s' ws hmade _ ih =>
    rw [List.flatMap_cons, ih]
    cases hleg : leg.outcome? with
    | none => rw [attemptLaps_cons_of_none hleg, hmade.sentIn_eq_nil hleg, List.nil_append]
    | some o => rw [attemptLaps_cons_of_some hleg, List.flatMap_cons]

end Relays

/-! ## Through a breaker -/

section Breakers

variable {resolver : Option (Resolver ε)} {key : String} {limit : Option Duration} {inner : Service ε}
  {laps : List (Lap ε)} {t t' : Instant} {v' : Option Breaker}

/-- As long as a breaker sleeps, all attempts are rejected. -/
theorem Relay.asleep {b : Breaker} (hopened : b.state = .opened)
    (h : Relay resolver (guarding key limit none inner) (breakerOf key) laps t (some b) t' v')
    (hsince : b.openedAt ≤ t)
    (hasleep : ∀ lap ∈ attemptLaps laps, lap.start < b.openedAt + b.config.sleepWindow.nanos) :
    ∀ lap ∈ attemptLaps laps, lap.Rejected key := by
  generalize hv : some b = v at h
  induction h with
  | nil => exact fun lap hlap => absurd hlap List.not_mem_nil
  | @cons lap laps t t' v v₁ v' s s' hstart hmade hc hrest ih =>
    subst hv
    have hlater : b.openedAt ≤ lap.stop := Nat.le_trans hsince (Nat.le_trans hstart hmade.time_le)
    cases hleg : lap.leg.outcome? with
    | none =>
      rw [attemptLaps_cons_of_none hleg] at hasleep ⊢
      exact ih hlater hasleep (eq_of_spares hc (hmade.spares hleg)).symm
    | some o =>
      rw [attemptLaps_cons_of_some hleg, List.forall_mem_cons] at hasleep
      rw [attemptLaps_cons_of_some hleg, List.forall_mem_cons]
      obtain ⟨call, hcall⟩ := attempt_of_outcome? hleg
      rw [hcall] at hmade
      have hslept := not_sleptEnough_of_lt (Nat.le_trans hsince hstart) hasleep.1
      obtain ⟨hunsent, rfl, rfl⟩ := rejected_of_asleep hopened hslept hmade hc
      exact ⟨⟨hunsent, hleg⟩, ih hlater hasleep.2 rfl⟩

/-- A failing attempt within the first window is sent and counted. -/
theorem Lap.Failing.counted {exchange : Exchange ε} {config : BreakerConfig} {now : Instant} {n : Nat} {lap : Lap ε}
    {call : Call} {o : Outcome} {s s' : World ε} (h : lap.Failing exchange.interceptors)
    (hleg : lap.leg = .attempt call o)
    (hends : Ends (guarding key limit none (executing exchange) call) lap.start s lap.writes o lap.stop s')
    (hc : Carried (breakerOf key) (some (counted config now n n)) lap.writes v') (hnow : now ≤ lap.start)
    (hwindow : lap.stop < now + config.rollingWindow.nanos) (hsize : n + 1 < UInt32.size) :
    (∃ request, sentIn lap.writes = [request]) ∧
      v' = some (if config.minimumCalls.toNat ≤ n + 1 ∧ config.failureThreshold.toNat ≤ n + 1 then
        (Breaker.counted config now (n + 1) (n + 1)).trip lap.stop
      else Breaker.counted config now (n + 1) (n + 1)) := by
  obtain ⟨request, hrequest⟩ := h.prepared call o hleg
  obtain ⟨hsent, rfl⟩ := passed_of_closed rfl hends hc
  rw [hrequest] at hsent
  have hone : sentIn lap.writes = [request] := hsent
  obtain ⟨e, he, hservice⟩ := h.failed (by rw [hone]; exact List.cons_ne_nil _ _)
  rw [hleg] at he
  obtain rfl : o = .error e := Option.some.inj he
  have hverdict : verdictOf (.error e) = .failure := by simp [verdictOf, hservice]
  have htime : lap.start ≤ lap.stop := hends.time_le
  refine ⟨⟨request, hone⟩, ?_⟩
  rw [hverdict, rollWindow_counted_of_lt hnow (Nat.lt_of_le_of_lt htime hwindow),
    report_failure_counted (Nat.le_trans hnow htime) hwindow hsize hsize]

/-- If `n` failures are counted and `left + 1` are missing, then as many attempts are sent, and the others are
rejected. By induction on the laps: an attempt that fails is one more failure, and the last one that is missing
opens the breaker. -/
theorem Relay.trips {exchange : Exchange ε} {config : BreakerConfig} {now : Instant} {n left : Nat}
    (hcalls : config.minimumCalls.toNat = n + left + 1) (hfailures : config.failureThreshold.toNat = n + left + 1)
    (h : Relay resolver (guarding key limit none (executing exchange)) (breakerOf key) laps t
      (some (counted config now n n)) t' v')
    (hnow : now ≤ t) (hfailing : ∀ lap ∈ attemptLaps laps, lap.Failing exchange.interceptors)
    (hwindow : ∀ lap ∈ (attemptLaps laps).take (left + 1), lap.stop < now + config.rollingWindow.nanos)
    (hasleep : ∀ last, (attemptLaps laps)[left]? = some last →
      ∀ lap ∈ attemptLaps laps, lap.start < last.stop + config.sleepWindow.nanos) :
    (∀ lap ∈ (attemptLaps laps).take (left + 1), ∃ request, sentIn lap.writes = [request]) ∧
      ∀ lap ∈ (attemptLaps laps).drop (left + 1), lap.Rejected key := by
  generalize hv : some (counted config now n n) = v at h
  induction h generalizing n left with
  | nil => exact ⟨fun lap hlap => absurd hlap List.not_mem_nil, fun lap hlap => absurd hlap List.not_mem_nil⟩
  | @cons lap laps t t' v v₁ v' s s' hstart hmade hc hrest ih =>
    subst hv
    have hbegun : now ≤ lap.start := Nat.le_trans hnow hstart
    have hlater : now ≤ lap.stop := Nat.le_trans hbegun hmade.time_le
    cases hleg : lap.leg.outcome? with
    | none =>
      rw [attemptLaps_cons_of_none hleg] at hfailing hwindow hasleep ⊢
      exact ih hcalls hfailures hlater hfailing hwindow hasleep (eq_of_spares hc (hmade.spares hleg)).symm
    | some o =>
      rw [attemptLaps_cons_of_some hleg] at hfailing hwindow hasleep ⊢
      rw [List.take_succ_cons, List.forall_mem_cons] at hwindow
      rw [List.forall_mem_cons] at hfailing
      rw [List.take_succ_cons, List.drop_succ_cons, List.forall_mem_cons]
      obtain ⟨call, hcall⟩ := attempt_of_outcome? hleg
      rw [hcall] at hmade
      have hsize := config.minimumCalls.toNat_lt_size
      obtain ⟨hsent, rfl⟩ := hfailing.1.counted hcall hmade hc hbegun hwindow.1 (by omega)
      rw [hcalls, hfailures] at hrest ih
      cases left with
      | zero =>
        -- it was the last failure that was missing
        rw [if_pos (by omega)] at hrest
        have hslept := (List.forall_mem_cons.1 (hasleep lap rfl)).2
        exact ⟨⟨hsent, fun lap hlap => absurd hlap (by simp)⟩, hrest.asleep rfl (Nat.le_refl _) hslept⟩
      | succ left =>
        have hmissing : n + (left + 1) + 1 = n + 1 + left + 1 := by omega
        obtain ⟨hall, hrejected⟩ := ih hmissing hmissing hlater hfailing.2 hwindow.2
          (fun last hlast lap hlap => hasleep last hlast lap (List.mem_cons_of_mem _ hlap))
          (by rw [if_neg (by omega)])
        exact ⟨⟨hsent, hall⟩, hrejected⟩

end Breakers

/-! ## Behind a service that fails -/

/-- Every request ends in a failure that counts against the service: in one of the transport, or in a 5xx response
that is turned into such a failure. -/
def Broken (exchange : Exchange ε) : Prop :=
  ∀ request t o ws answer t' o', Ends (exchange.transport request) t o ws answer t' o' →
    (∃ e, answer = .error e ∧ isOwnFault e = false) ∨
    ∃ response, answer = .ok response ∧ response.status.isServerError = true ∧
      exchange.statusHandler.handles response.status = true ∧
      ∀ method t o ws e t' o', Ends (exchange.statusHandler.decode method (response.withRequest request)) t o ws e t' o' →
        isOwnFault e = false

section Broken

variable {exchange : Exchange ε} {call : Call} {request : Request} {t t' : Instant} {s s' : World ε}
  {ws : List (Write (World ε))} {o : Outcome}

theorem fails_of_executing (hbroken : Broken exchange)
    (hrequest : prepare exchange.interceptors call = .ok request)
    (h : Ends (executing exchange call) t s ws o t' s') : ∃ e, o = .error e ∧ isOwnFault e = false := by
  unfold executing at h
  rw [hrequest] at h
  obtain ⟨_, sent, _, _, _, -, hsend, hclassify⟩ := (ends_andThen _ _).1 h
  obtain ⟨t₁, o₁, us, answer, t₂, o₂, htransport, rfl⟩ := answer_of_send hsend
  rcases hbroken _ _ _ _ _ _ _ htransport with
    ⟨e, rfl, hservice⟩ | ⟨response, rfl, hstatus, hhandles, hdecoded⟩
  · obtain ⟨-, rfl, -, -⟩ := ends_done.1 hclassify
    exact ⟨e, rfl, hservice⟩
  · change Ends (classify exchange call (response.withRequest request)) _ _ _ o t' s' at hclassify
    have hsame : (response.withRequest request).status = response.status := rfl
    have hfound : response.status ≠ .notFound := by
      intro hnotFound
      rw [hnotFound] at hstatus
      exact absurd hstatus (by decide)
    unfold classify at hclassify
    rw [hsame, if_neg fun hempty => hfound hempty.2, if_pos hhandles] at hclassify
    obtain ⟨_, e, _, _, _, -, hdecode, hend⟩ := (ends_andThen _ _).1 hclassify
    obtain ⟨-, rfl, -, -⟩ := ends_done.1 hend
    exact ⟨e, rfl, hdecoded _ _ _ _ _ _ _ (ends_outside hdecode).1⟩

/-- To be cut off counts against the service, too. -/
theorem fails_of_limited (hbroken : Broken exchange)
    (hrequest : prepare exchange.interceptors call = .ok request) {limit : Option Duration}
    (h : Ends (limited limit call.method (executing exchange call)) t s ws o t' s') :
    ∃ e, o = .error e ∧ isOwnFault e = false := by
  cases limit with
  | none => exact fails_of_executing hbroken hrequest h
  | some limit =>
    obtain ⟨us, result, t₁, s₁, vs, -, hwithin, hend⟩ := (ends_andThen _ _).1 h
    cases result with
    | none =>
      obtain ⟨-, rfl, -, -⟩ := ends_done.1 hend
      exact ⟨_, rfl, rfl⟩
    | some o' =>
      obtain ⟨-, rfl, -, -⟩ := ends_done.1 hend
      rcases ends_within _ hwithin with ⟨_, ho, hinner, -⟩ | ⟨_, _, _, _, _, _, _, ho, -⟩
      · cases ho
        exact fails_of_executing hbroken hrequest hinner
      · cases ho

/-- All attempts that come to a request are failing. -/
theorem failing_of_broken (hbroken : Broken exchange) {resolver : Option (Resolver ε)} {key : String}
    {limit : Option Duration} {lap : Lap ε}
    (hmade : lap.leg.Made resolver (guarding key limit none (executing exchange)) lap.start s lap.writes lap.stop s')
    (hprepared : ∀ call o, lap.leg = .attempt call o → ∃ request, prepare exchange.interceptors call = .ok request) :
    lap.Failing exchange.interceptors := by
  refine ⟨hprepared, fun hsent => ?_⟩
  cases hleg : lap.leg.outcome? with
  | none => exact absurd (hmade.sentIn_eq_nil hleg) hsent
  | some o =>
    obtain ⟨call, hcall⟩ := attempt_of_outcome? hleg
    obtain ⟨request, hrequest⟩ := hprepared call o hcall
    rw [hcall] at hmade
    obtain ⟨us, answer, t₁, s₁, vs, hws, hacquire, hrest⟩ := (ends_andThen _ _).1 hmade
    cases answer with
    | none =>
      have hunsent := mute_andThen (mute_log _) (fun _ => mute_recover _ _ _) hrest
      rw [hws, sentIn_append, mute_acquire _ hacquire, hunsent] at hsent
      exact absurd rfl hsent
    | some permit =>
      obtain ⟨us', o', t₂, s₂, vs', -, hattempt, hconclude⟩ := (ends_andThen _ _).1 hrest
      rw [conclude_none] at hconclude
      obtain ⟨_, _, _, _, _, -, -, hend⟩ := (ends_andThen _ _).1 hconclude
      obtain ⟨-, rfl, -, -⟩ := ends_done.1 hend
      obtain ⟨e, rfl, hservice⟩ := fails_of_limited hbroken hrequest ((ends_protect _ _).1 hattempt)
      exact ⟨e, rfl, hservice⟩

end Broken

end ResilientClient.Pipeline
