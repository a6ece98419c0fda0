/-
Invocations one after the other. A breaker sees the attempts of all of them as one row, in whatever loop of
whatever invocation each of them is made. So if all attempts fail, then the first of them, as many as the
thresholds say, reach the transport, and the next one is rejected; that ends its invocation, and every later
invocation ends at its first attempt (`trips_after_threshold`).
-/
import ResilientClient.Proofs.Client.Invocation
import ResilientClient.Proofs.Client.SameRequest
import ResilientClient.Proofs.Pipeline.Tripping

open ResilientClient.Fiber ResilientClient.Pipeline

namespace ResilientClient

variable {ε τ : Type}

/-! ## Invocations -/

/-- An invocation as it went. -/
structure Invocation (ε : Type) : Type 1 where
  args : List Argument
  α : Type
  work : Stage ε α
  /-- What is made of a failure of the pipeline. -/
  failed : Error → α
  start : Instant
  writes : List (Write (World ε))
  result : α
  stop : Instant

/-- When it ended, and where its requests went. -/
def Invocation.visits (i : Invocation ε) : Instant × List String :=
  (i.stop, (sentIn i.writes).map fun request => request.uri.text)

/-- Invocations of a method of which each begins when the one before has ended, or later, while nobody else
changes a part of the state. -/
inductive Series (m : Method ε) (part : World ε → τ) : List (Invocation ε) → Instant → τ → Prop
  | nil {t : Instant} {v : τ} : Series m part [] t v
  | cons {i : Invocation ε} {later : List (Invocation ε)} {t : Instant} {v v' : τ} {s s' : World ε} :
      t ≤ i.start → m.Invokes i.args i.work i.failed → Ends i.work i.start s i.writes i.result i.stop s' →
      Carried part v i.writes v' → Series m part later i.stop v' → Series m part (i :: later) t v

/-- Executions of a method one right after the other, with nobody else around. -/
def Method.executions (m : Method ε) : List (List Argument) → Instant → World ε → List (Invocation ε)
  | [], _, _ => []
  | args :: more, t, s =>
    let stop := (m.execute args).run t s
    ⟨args, Outcome, m.execute args, .error, t, (m.execute args).trail t s, stop.1, stop.2.1⟩ ::
      m.executions more stop.2.1 stop.2.2

theorem Method.args_executions (m : Method ε) (calls : List (List Argument)) :
    ∀ (t : Instant) (s : World ε), (m.executions calls t s).map Invocation.args = calls := by
  induction calls with
  | nil => exact fun _ _ => rfl
  | cons args more ih => exact fun t s => congrArg (args :: ·) (ih _ _)

theorem Method.series_executions (m : Method ε) (part : World ε → τ) (calls : List (List Argument)) :
    ∀ (t : Instant) (s : World ε), Series m part (m.executions calls t s) t (part s) := by
  induction calls with
  | nil => exact fun _ _ => .nil
  | cons args more ih =>
    exact fun t s => .cons (Nat.le_refl _) .execute (ends_trail _ t s) (carried_trail part _ t s) (ih _ _)

namespace Builder

variable {b : Builder ε} {around : Surroundings ε} {rule : HeaderRule} {m : Method ε} {call : Call}
  {legs : List Leg} {r : Outcome} {i : Invocation ε} {invocations : List (Invocation ε)} {lap : Lap ε}
  {laps front back : List (Lap ε)} {timetables : List (List (Lap ε))} {key : String}

/-- The laps of an invocation: they are a trip on a course of its call, behind them there are only remarks, and a
failure is returned. -/
def Timetable (b : Builder ε) (around : Surroundings ε) (rule : HeaderRule) (m : Method ε) (i : Invocation ε)
    (laps : List (Lap ε)) : Prop :=
  ∃ s r t' s' vs, i.writes = laps.flatMap Lap.writes ++ vs ∧
    Trip b.resolver (b.backing (b.exchange around rule) m.key) laps i.start s t' s' ∧
    b.course around (.start m.endpoint i.args b.target) (laps.map Lap.leg) r ∧
    t' ≤ i.stop ∧ (∀ w ∈ vs, Method.Remark w) ∧ ∀ e, r = .error e → i.result = i.failed e

/-! ## Timetables -/

theorem exists_timetables
    (hmethods : ∀ args t s ws r t' s', Ends (m.dispatch args) t s ws r t' s' →
      ∃ legs, b.MadeOf around rule m args legs t s ws r t' s')
    {part : World ε → τ} {t : Instant} {v : τ} (h : Series m part invocations t v) :
    ∃ timetables, List.Forall₂ (b.Timetable around rule m) invocations timetables := by
  induction h with
  | nil => exact ⟨[], .nil⟩
  | cons _ hinvokes hends _ _ ih =>
    obtain ⟨timetables, hlater⟩ := ih
    obtain ⟨us, r, t₁, s₁, vs, hws, hdispatch, hle, hremarks, herror⟩ := hinvokes.remarked hends
    obtain ⟨legs, hmade⟩ := hmethods _ _ _ _ _ _ _ hdispatch
    obtain ⟨laps, rfl, rfl, htrip⟩ := hmade.journey.trip
    exact ⟨laps :: timetables,
      .cons ⟨_, r, t₁, s₁, vs, hws, htrip, hmade.course, hle, hremarks, fun e he => (herror e he).1⟩ hlater⟩

/-- The laps of all invocations are one row for the breaker of a key. -/
theorem relay_of_series {t : Instant} {v : Option Breaker} (h : Series m (breakerOf key) invocations t v)
    (htimetables : List.Forall₂ (b.Timetable around rule m) invocations timetables) :
    ∃ t' v', Relay b.resolver (b.backing (b.exchange around rule) m.key) (breakerOf key) timetables.flatten
      t v t' v' := by
  induction h generalizing timetables with
  | nil =>
    cases htimetables
    exact ⟨_, _, .nil (Nat.le_refl _)⟩
  | cons hstart _ _ hc _ ih =>
    cases htimetables with
    | cons hfirst hlater =>
      obtain ⟨s, r, t₁, s₁, vs, hws, htrip, -, hle, hremarks, -⟩ := hfirst
      obtain ⟨t', v', hrest⟩ := ih hlater
      rw [hws] at hc
      obtain ⟨v₁, hlaps, hbehind⟩ := carried_append.1 hc
      obtain rfl := eq_of_spares hbehind fun w hw => (hremarks w hw).breakers
      exact ⟨t', v', ((htrip.relay hlaps).from_le hstart).append (hrest.from_le hle)⟩

theorem Timetable.made_of_mem (h : b.Timetable around rule m i laps) (hmem : lap ∈ laps) : lap.stop ≤ i.stop ∧
    ∃ s s', lap.leg.Made b.resolver (b.backing (b.exchange around rule) m.key) lap.start s lap.writes lap.stop s' := by
  obtain ⟨s, r, t', s', vs, -, htrip, -, hle, -, -⟩ := h
  exact ⟨Nat.le_trans (htrip.stop_le hmem) hle, htrip.made_of_mem hmem⟩

/-- A rejected attempt is the last of its invocation, and the rejection is returned. -/
theorem Timetable.cut_short (h : b.Timetable around rule m i laps) (hlaps : attemptLaps laps = front ++ lap :: back)
    (hrejected : lap.Rejected key) : back = [] ∧ i.result = i.failed (.circuitOpen key) := by
  obtain ⟨s, r, t', s', vs, -, -, hcourse, -, -, herror⟩ := h
  obtain ⟨part, more, rfl, -, hmore⟩ := List.filter_eq_append_iff.1 hlaps
  obtain ⟨skipped, rest, rfl, -, -, rfl⟩ := List.filter_eq_cons_iff.1 hmore
  obtain ⟨call, hattempt⟩ := attempt_of_outcome? hrejected.outcome
  have hsplit : (part ++ (skipped ++ lap :: rest)).map Lap.leg =
      (part ++ skipped).map Lap.leg ++ .attempt call (.error (.circuitOpen key)) :: rest.map Lap.leg := by
    simp [hattempt]
  obtain ⟨hlast, hr⟩ := course_endsAt_open hcourse _ _ _ _ hsplit rfl
  rw [List.map_eq_nil_iff] at hlast
  subst hlast
  exact ⟨rfl, herror _ hr⟩

theorem Timetable.attempts_pos (h : b.Timetable around rule m i laps)
    (hfound : ∀ lap ∈ laps, ∀ service found, lap.leg = .lookup service found → ∃ server, found = .ok server) :
    0 < (attemptLaps laps).length := by
  obtain ⟨s, r, t', s', vs, -, -, hcourse, -⟩ := h
  rw [← attempts_map_leg]
  refine course_attempts_pos hcourse fun service found hmem => ?_
  obtain ⟨lap, hlap, hleg⟩ := List.mem_map.1 hmem
  exact hfound lap hlap service found hleg

/-- The requests of an invocation are those of its attempts. -/
theorem Timetable.sentIn_eq (h : b.Timetable around rule m i laps) :
    sentIn i.writes = (attemptLaps laps).flatMap fun lap => sentIn lap.writes := by
  obtain ⟨s, r, t', s', vs, hws, htrip, -, -, hremarks, -⟩ := h
  rw [hws, sentIn_append, Method.sentIn_of_remarks hremarks, List.append_nil, sentIn_flatMap]
  exact htrip.flatMap_attemptLaps

/-- The requests of all invocations are those of all attempts. -/
theorem sentIn_of_timetables (h : List.Forall₂ (b.Timetable around rule m) invocations timetables) :
    (invocations.flatMap fun i => sentIn i.writes) =
      (attemptLaps timetables.flatten).flatMap fun lap => sentIn lap.writes := by
  induction h with
  | nil => rfl
  | cons hfirst _ ih =>
    rw [List.flatMap_cons, ih, hfirst.sentIn_eq, List.flatten_cons, attemptLaps_append, List.flatMap_append]

theorem timetable_at {k : Nat} (h : List.Forall₂ (b.Timetable around rule m) invocations timetables)
    (hi : invocations[k]? = some i) (hlaps : timetables[k]? = some laps) : b.Timetable around rule m i laps := by
  obtain ⟨hk, rfl⟩ := List.getElem?_eq_some_iff.1 hi
  obtain ⟨hk', rfl⟩ := List.getElem?_eq_some_iff.1 hlaps
  exact h.get hk hk'

theorem timetable_of_mem (h : List.Forall₂ (b.Timetable around rule m) invocations timetables)
    (hmem : lap ∈ timetables.flatten) : ∃ i laps, i ∈ invocations ∧ b.Timetable around rule m i laps ∧ lap ∈ laps := by
  obtain ⟨laps, hlaps, hlap⟩ := List.mem_flatten.1 hmem
  obtain ⟨k, hk, rfl⟩ := List.getElem_of_mem hlaps
  have hk' : k < invocations.length := h.length_eq ▸ hk
  exact ⟨invocations[k], timetables[k], List.getElem_mem hk', h.get hk' hk, hlap⟩

theorem attempts_pos_of_timetables {k : Nat}
    (h : List.Forall₂ (b.Timetable around rule m) invocations timetables)
    (hfound : ∀ lap ∈ timetables.flatten, ∀ service found, lap.leg = .lookup service found →
      ∃ server, found = .ok server)
    (hi : invocations[k]? = some i) (hlaps : timetables[k]? = some laps) : 0 < (attemptLaps laps).length :=
  (timetable_at h hi hlaps).attempts_pos fun lap hlap =>
    hfound lap (List.mem_flatten.2 ⟨laps, List.mem_of_getElem? hlaps, hlap⟩)

/-- If each invocation has an attempt, there are as many attempts as invocations. -/
theorem length_le_attemptLaps (timetables : List (List (Lap ε)))
    (hpos : ∀ laps ∈ timetables, 0 < (attemptLaps laps).length) :
    timetables.length ≤ (attemptLaps timetables.flatten).length := by
  induction timetables with
  | nil => exact Nat.zero_le _
  | cons laps later ih =>
    obtain ⟨hfirst, hlater⟩ := List.forall_mem_cons.1 hpos
    have hrest := ih hlater
    rw [List.flatten_cons, attemptLaps_append, List.length_append, List.length_cons]
    omega

/-- If all attempts behind the first of them are rejected, then an invocation ends at the first that is rejected. -/
theorem cut_short_of_rejected {threshold k : Nat}
    (htimetables : List.Forall₂ (b.Timetable around rule m) invocations timetables)
    (hrejected : ∀ lap ∈ (attemptLaps timetables.flatten).drop threshold, lap.Rejected key)
    (hi : invocations[k]? = some i) (hlaps : timetables[k]? = some laps) (hpos : 0 < (attemptLaps laps).length)
    (hreached : threshold < (attemptLaps (timetables.take k).flatten).length + (attemptLaps laps).length) :
    i.result = i.failed (.circuitOpen key) ∧
      (attemptLaps laps).length = threshold - (attemptLaps (timetables.take k).flatten).length + 1 := by
  have htimetable := timetable_at htimetables hi hlaps
  obtain ⟨hk, rfl⟩ := List.getElem?_eq_some_iff.1 hlaps
  have hrow : attemptLaps timetables.flatten = attemptLaps (timetables.take k).flatten ++
      (attemptLaps timetables[k] ++ attemptLaps (timetables.drop (k + 1)).flatten) := by
    conv_lhs => rw [← List.take_append_drop k timetables, List.drop_eq_getElem_cons hk]
    simp only [List.flatten_append, List.flatten_cons, attemptLaps_append]
  generalize attemptLaps (timetables.take k).flatten = earlier at hreached hrow ⊢
  generalize timetables[k] = laps at htimetable hpos hreached hrow ⊢
  -- the first attempt of the invocation that is rejected
  have hown : threshold - earlier.length < (attemptLaps laps).length := by omega
  obtain ⟨front, lap, back, hsplit, hfront⟩ : ∃ front lap back,
      attemptLaps laps = front ++ lap :: back ∧ front.length = threshold - earlier.length := by
    refine ⟨(attemptLaps laps).take _, (attemptLaps laps)[threshold - earlier.length],
      (attemptLaps laps).drop (threshold - earlier.length + 1), ?_, List.length_take_of_le (Nat.le_of_lt hown)⟩
    rw [← List.drop_eq_getElem_cons hown, List.take_append_drop]
  have hlap : lap ∈ (attemptLaps timetables.flatten).drop threshold := by
    rw [hrow, hsplit, List.append_assoc, ← List.append_assoc,
      List.drop_append_of_le_length (by rw [List.length_append]; omega)]
    simp
  obtain ⟨rfl, hresult⟩ := htimetable.cut_short hsplit (hrejected lap hlap)
  refine ⟨hresult, ?_⟩
  rw [hsplit, List.length_append, hfront]
  rfl

end Builder

/-- The retry policy of the client is that of its configuration, and both thresholds of its breakers are the same
number. Invocations of a method follow one another; nobody else uses its breaker, which is new, and there is no
fallback. Whatever they are invoked for and whatever the budgets are, each of them has a timetable. If all attempts
come to a request, those that are sent fail in a way that counts against the service, every lookup finds an instance,
as many attempts as the thresholds say have ended within the first window, and no attempt begins after the breaker has
slept, then exactly these first attempts are sent, with one request each; every later one is rejected, the first of
them is the last of its invocation, which returns the rejection, and every later invocation returns it after one
attempt. -/
theorem trips_after_threshold (b : Builder ε) (around : Surroundings ε) (threshold : Nat) (hthreshold : 1 ≤ threshold)
    (hpolicy : b.retryPolicy = none) {registry : BreakerRegistry} (hregistry : b.registry? = some registry)
    (hfailures : registry.config.failureThreshold.toNat = threshold)
    (hcalls : registry.config.minimumCalls.toNat = threshold) {client : Client ε} {t₀ t₁ : Instant}
    {s₀ s₁ : World ε} {ws₀ : List (Write (World ε))} (hbuild : Ends (b.build around) t₀ s₀ ws₀ (.ok client) t₁ s₁) :
    ∃ rule, HeaderRule.userAgent b.config.userAgent = .ok rule ∧ ∀ m ∈ client.methods,
      b.fallbacks b.target m.key = none → registry.get? (b.breakerKey m.key) = none →
      ∀ invocations, Series m (breakerOf (b.breakerKey m.key)) invocations t₁ (breakerOf (b.breakerKey m.key) s₁) →
        (∃ timetables, List.Forall₂ (b.Timetable around rule m) invocations timetables) ∧
        ∀ timetables, List.Forall₂ (b.Timetable around rule m) invocations timetables →
          let row := attemptLaps timetables.flatten
          (∀ lap ∈ row, lap.Failing (b.exchange around rule).interceptors) →
          (∀ lap ∈ timetables.flatten, ∀ service found, lap.leg = .lookup service found → ∃ server, found = .ok server) →
          (∀ lap ∈ row.take threshold, lap.stop < t₀ + registry.config.rollingWindow.nanos) →
          (∀ last, row[threshold - 1]? = some last →
            ∀ lap ∈ row, lap.start < last.stop + registry.config.sleepWindow.nanos) →
          (∀ lap ∈ row.take threshold, ∃ request, sentIn lap.writes = [request]) ∧
          (∀ lap ∈ row.drop threshold, lap.Rejected (b.breakerKey m.key)) ∧
          (invocations.flatMap fun i => sentIn i.writes) = (row.take threshold).flatMap (fun lap => sentIn lap.writes) ∧
          ∀ k i laps, invocations[k]? = some i → timetables[k]? = some laps →
            let earlier := (attemptLaps (timetables.take k).flatten).length
            let own := (attemptLaps laps).length
            0 < own ∧ (threshold < earlier + own →
              i.result = i.failed (.circuitOpen (b.breakerKey m.key)) ∧ own = threshold - earlier + 1) := by
  obtain ⟨left, rfl⟩ := Nat.exists_eq_add_of_le' hthreshold
  obtain ⟨rule, hrule, hmethods⟩ := Builder.madeOf_of_dispatch hpolicy hbuild
  obtain ⟨rfl, hbreaker⟩ := Builder.breaker_of_build hregistry hbuild
  refine ⟨rule, hrule, fun m hm hfallback hnew invocations hseries => ?_⟩
  have hbacking : b.backing (b.exchange around rule) m.key =
      guarding (b.breakerKey m.key) registry.config.executionTimeout none (executing (b.exchange around rule)) := by
    unfold Builder.backing
    rw [hregistry, hfallback]
  refine ⟨Builder.exists_timetables (hmethods m hm) hseries, ?_⟩
  intro timetables htimetables row hfailing hfound hwindow hasleep
  obtain ⟨t', v', hrelay⟩ := Builder.relay_of_series hseries htimetables
  rw [hbacking, breakerOf, hbreaker m hm hnew, ← Breaker.counted_zero] at hrelay
  have hcount : left + 1 = 0 + left + 1 := by omega
  obtain ⟨hsent, hrejected⟩ := hrelay.trips (hcalls.trans hcount) (hfailures.trans hcount) (Nat.le_refl _)
    hfailing hwindow hasleep
  refine ⟨hsent, hrejected, ?_, fun k i laps hi hlaps => ?_⟩
  · have hunsent : ((row.drop (left + 1)).flatMap fun lap => sentIn lap.writes) = [] :=
      List.flatMap_eq_nil_iff.2 fun lap hlap => (hrejected lap hlap).unsent
    conv_lhs => rw [Builder.sentIn_of_timetables htimetables, ← List.take_append_drop (left + 1) (attemptLaps _)]
    rw [List.flatMap_append, hunsent, List.append_nil]
  · have hpos := Builder.attempts_pos_of_timetables htimetables hfound hi hlaps
    exact ⟨hpos, Builder.cut_short_of_rejected htimetables hrejected hi hlaps hpos⟩

/-! ## Two instances that cannot be reached -/

namespace Builder

/-- A client like `refused` that retries once, with breakers that open at three failures. -/
def wary : Builder Nat :=
  { refused with
    config := { refused.config with
      retry := some ⟨1, .none, false⟩
      breaker := some { BreakerConfig.default with failureThreshold := 3, minimumCalls := 3 } } }

/-- Surroundings whose network answers too late. -/
def slow : Surroundings Nat := ⟨0, fun _ => .ofNat 0, fun _ => .done (.error (.timeout (.ofSeconds 1)))⟩

section Wary

variable {rule : HeaderRule} {m : Method Nat} {i : Invocation Nat} {laps : List (Lap Nat)} {lap : Lap Nat}
  {invocations : List (Invocation Nat)} {timetables : List (List (Lap Nat))}

theorem broken_wary (rule : HeaderRule) : Broken (wary.exchange slow rule) := by
  intro request t o ws answer t' o' h
  obtain ⟨-, rfl, -, -⟩ := ends_done.1 h
  exact .inl ⟨_, rfl, by decide⟩

theorem lookup_of_wary {backing : Service Nat} {service : String} {found : Except Error Server} {t t' : Instant}
    {s s' : World Nat} {ws : List (Write (World Nat))}
    (h : (Leg.lookup service found).Made wary.resolver backing t s ws t' s') :
    found = .ok soleServer ∨ found = .ok secureServer := by
  obtain ⟨look, us, t₁, o₁, hlook, hresolve⟩ := h.resolved
  cases hlook
  cases (ends_modifyGet.1 hresolve).2.1
  split
  · exact .inl rfl
  · exact .inr rfl

theorem prepare_wary (rule : HeaderRule) {server : Server} (h : server = soleServer ∨ server = secureServer) :
    ∃ request, prepare (wary.exchange slow rule).interceptors
      ((Call.start getEndpoint [] wary.target).toServer server) = .ok request := by
  have hexpands : (getEndpoint.expand [] server.baseUrl).isOk = true := by
    rcases h with rfl | rfl <;> decide +kernel
  cases hrequest : getEndpoint.expand [] server.baseUrl with
  | error e => rw [hrequest] at hexpands; cases hexpands
  | ok request =>
    refine ⟨rule.apply (tenantRule.apply request), ?_⟩
    simp only [prepare, baseUrl, Call.toServer, Call.start, hrequest]
    rfl

/-- A lap of the client in a world in which no time passes. -/
structure AtOnce (rule : HeaderRule) (lap : Lap Nat) : Prop where
  start : lap.start = 0
  stop : lap.stop = 0
  failing : lap.Failing (wary.exchange slow rule).interceptors
  found : ∀ service found, lap.leg = .lookup service found → ∃ server, found = .ok server

theorem atOnce_of_timetable (h : wary.Timetable slow rule m i laps) (hendpoint : m.endpoint = getEndpoint)
    (hargs : i.args = []) (hstop : i.stop = 0) (hmem : lap ∈ laps) : AtOnce rule lap := by
  have hservers : ∀ service found, .lookup service found ∈ laps.map Lap.leg →
      found = .ok soleServer ∨ found = .ok secureServer := by
    intro service found hlookup
    obtain ⟨other, hother, hleg⟩ := List.mem_map.1 hlookup
    obtain ⟨-, s, s', hmade⟩ := h.made_of_mem hother
    rw [hleg] at hmade
    exact lookup_of_wary hmade
  obtain ⟨hle, s, s', hmade⟩ := h.made_of_mem hmem
  have hstopped : lap.stop = 0 := Nat.le_zero.1 (hstop ▸ hle)
  refine ⟨Nat.le_zero.1 (hstopped ▸ hmade.time_le), hstopped, failing_of_broken (broken_wary rule) hmade ?_, ?_⟩
  · intro call o hleg
    obtain ⟨s, r, t', s', vs, -, -, hcourse, -⟩ := h
    obtain ⟨server, hlookup, rfl⟩ := course_placed rfl hcourse call o (hleg ▸ List.mem_map_of_mem hmem)
    rw [hendpoint, hargs]
    refine prepare_wary rule ?_
    rcases hservers _ _ hlookup with hserver | hserver
    · exact .inl (Except.ok.inj hserver)
    · exact .inr (Except.ok.inj hserver)
  · intro service found hleg
    rcases hservers service found (hleg ▸ List.mem_map_of_mem hmem) with hserver | hserver
    · exact ⟨_, hserver⟩
    · exact ⟨_, hserver⟩

theorem laps_of_wary (h : List.Forall₂ (wary.Timetable slow rule m) invocations timetables)
    (hendpoint : m.endpoint = getEndpoint) (hcalm : ∀ i ∈ invocations, i.stop = 0 ∧ i.args = []) :
    ∀ lap ∈ timetables.flatten, AtOnce rule lap := by
  intro lap hlap
  obtain ⟨i, laps, hi, htimetable, hmem⟩ := timetable_of_mem h hlap
  obtain ⟨hstop, hargs⟩ := hcalm i hi
  exact atOnce_of_timetable htimetable hendpoint hargs hstop hmem

/-- The world of the client when nothing has happened. -/
def quietWorld : World Nat := ⟨⟨[], 0⟩, .empty .default, []⟩

/-- Of four executions the first one sends three requests, and the others none. -/
theorem executions_of_wary : ∃ client ws₀ t₁ s₁ m, Ends (wary.build slow) 0 quietWorld ws₀ (.ok client) t₁ s₁ ∧
    m ∈ client.methods ∧ m.endpoint = getEndpoint ∧ (m.executions [[], [], [], []] t₁ s₁).map Invocation.visits =
      [(0, ["http://a:80/", "https://b:443/", "http://a:80/"]), (0, []), (0, []), (0, [])] := by
  have hrun : (wary.first slow quietWorld).map (fun p =>
      (p.1.executions [[], [], [], []] p.2.1 p.2.2).map Invocation.visits) =
      some [(0, ["http://a:80/", "https://b:443/", "http://a:80/"]), (0, []), (0, []), (0, [])] := by decide +kernel
  obtain ⟨⟨m, t₁, s₁⟩, hfirst, hvisits⟩ := Option.map_eq_some_iff.1 hrun
  obtain ⟨client, ws₀, hbuild, hm⟩ := ends_of_first hfirst
  exact ⟨client, ws₀, t₁, s₁, m, hbuild, hm, endpoint_of_build (by rfl) hbuild hm, hvisits⟩

end Wary

end Builder

/-- Three attempts are sent, the last of them in the second round of the first execution; so whatever comes of the
others, the fourth execution is rejected. -/
theorem trips_after_threshold_refused :
    let b := Builder.wary
    let key := "Api#get()@api"
    ∃ client ws₀ t₁ s₁ m invocations rule timetables last,
      Ends (b.build Builder.slow) 0 Builder.quietWorld ws₀ (.ok client) t₁ s₁ ∧ m ∈ client.methods ∧
      m.executions [[], [], [], []] t₁ s₁ = invocations ∧ invocations.map Invocation.visits =
        [(0, ["http://a:80/", "https://b:443/", "http://a:80/"]), (0, []), (0, []), (0, [])] ∧
      List.Forall₂ (b.Timetable Builder.slow rule m) invocations timetables ∧
      (∀ lap ∈ (attemptLaps timetables.flatten).take 3, ∃ request, sentIn lap.writes = [request]) ∧
      (∀ lap ∈ (attemptLaps timetables.flatten).drop 3, lap.Rejected key) ∧
      invocations[3]? = some last ∧ last.result = last.failed (.circuitOpen key) := by
  intro b key
  obtain ⟨client, ws₀, t₁, s₁, m, hbuild, hm, hendpoint, hvisits⟩ := Builder.executions_of_wary
  have hkey : b.breakerKey m.key = key := by
    rw [Method.key, hendpoint]
    decide +kernel
  have hargs := m.args_executions [[], [], [], []] t₁ s₁
  have hseries := m.series_executions (breakerOf (b.breakerKey m.key)) [[], [], [], []] t₁ s₁
  generalize hexecutions : m.executions [[], [], [], []] t₁ s₁ = invocations at hvisits hargs hseries
  have hstops : invocations.map Invocation.stop = [0, 0, 0, 0] := by
    have hfst := congrArg (List.map Prod.fst) hvisits
    rwa [List.map_map] at hfst
  have hcalm : ∀ i ∈ invocations, i.stop = 0 ∧ i.args = [] := by
    intro i hi
    have hstop : i.stop ∈ invocations.map Invocation.stop := List.mem_map_of_mem hi
    have hnone : i.args ∈ invocations.map Invocation.args := List.mem_map_of_mem hi
    rw [hstops] at hstop
    rw [hargs] at hnone
    exact ⟨by simpa using hstop, by simpa using hnone⟩
  obtain ⟨rule, -, hall⟩ := trips_after_threshold b Builder.slow 3 (by decide) rfl rfl rfl rfl hbuild
  obtain ⟨⟨timetables, htimetables⟩, htrips⟩ := hall m hm rfl rfl invocations hseries
  have hlaps := Builder.laps_of_wary htimetables hendpoint hcalm
  have hrow : ∀ lap ∈ attemptLaps timetables.flatten, lap ∈ timetables.flatten := fun _ => List.mem_of_mem_filter
  obtain ⟨hsent, hrejected, -, hcut⟩ := htrips timetables htimetables
    (fun lap hlap => (hlaps lap (hrow lap hlap)).failing)
    (fun lap hlap service found => (hlaps lap hlap).found service found)
    (fun lap hlap => by rw [(hlaps lap (hrow lap (List.mem_of_mem_take hlap))).stop]; decide)
    (fun last hlast lap hlap => by
      rw [(hlaps lap (hrow lap hlap)).start, (hlaps last (hrow last (List.mem_of_getElem? hlast))).stop]
      decide)
  rw [hkey] at hrejected hcut
  -- each execution has an attempt, so three of them have used up the threshold
  have hlength : invocations.length = 4 := by simpa using congrArg List.length hargs
  have hlast : 3 < invocations.length := by omega
  have hlast' : 3 < timetables.length := htimetables.length_eq ▸ hlast
  have hearlier := Builder.length_le_attemptLaps (timetables.take 3) fun laps hmem => by
    obtain ⟨k, hk, rfl⟩ := List.getElem_of_mem (List.mem_of_mem_take hmem)
    have hk' : k < invocations.length := htimetables.length_eq ▸ hk
    exact (hcut k _ _ (List.getElem?_eq_getElem hk') (List.getElem?_eq_getElem hk)).1
  rw [List.length_take_of_le (by omega)] at hearlier
  obtain ⟨hpos, hresult⟩ :=
    hcut 3 _ _ (List.getElem?_eq_getElem hlast) (List.getElem?_eq_getElem hlast')
  exact ⟨client, ws₀, t₁, s₁, m, invocations, rule, timetables, invocations[3], hbuild, hm, hexecutions, hvisits,
    htimetables, hsent, hrejected, List.getElem?_eq_getElem hlast, (hresult (by omega)).1⟩

end ResilientClient
