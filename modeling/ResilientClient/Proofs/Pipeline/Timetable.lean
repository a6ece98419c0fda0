/-
Timetables of journeys. A lap is a leg with the times at which it begins and ends and with its own writes, so
that what is said of one attempt of a journey can be said of exactly that attempt; every journey has its laps
(`Journey.trip`). Retries are journeys of this kind under any policy whatever (`Repeats`).
-/
import ResilientClient.Pipeline.Retry
import ResilientClient.Proofs.Pipeline.Sending

open ResilientClient.Fiber

namespace ResilientClient.Pipeline

variable {ε : Type}

/-! ## Laps -/

/-- A leg as it was made. -/
structure Lap (ε : Type) where
  leg : Leg
  start : Instant
  writes : List (Write (World ε))
  stop : Instant

/-- A journey lap by lap. -/
inductive Trip (resolver : Option (Resolver ε)) (inner : Service ε) :
    List (Lap ε) → Instant → World ε → Instant → World ε → Prop
  | nil {t : Instant} {s : World ε} : Trip resolver inner [] t s t s
  | cons {leg : Leg} {laps : List (Lap ε)} {t t₁ t' : Instant} {s s₁ s' : World ε}
      {ws : List (Write (World ε))} :
      leg.Made resolver inner t s ws t₁ s₁ → Trip resolver inner laps t₁ s₁ t' s' →
      Trip resolver inner (⟨leg, t, ws, t₁⟩ :: laps) t s t' s'

section Laps

variable {resolver : Option (Resolver ε)} {inner : Service ε} {legs : List Leg} {laps : List (Lap ε)}
  {lap : Lap ε} {t t' : Instant} {s s' : World ε} {ws : List (Write (World ε))}

/-- Every journey has a timetable. -/
theorem Journey.trip (h : Journey resolver inner legs t s ws t' s') : ∃ laps : List (Lap ε),
    laps.map Lap.leg = legs ∧ laps.flatMap Lap.writes = ws ∧ Trip resolver inner laps t s t' s' := by
  induction h with
  | nil => exact ⟨[], rfl, rfl, .nil⟩
  | cons hleg _ ih =>
    obtain ⟨laps, rfl, rfl, htrip⟩ := ih
    exact ⟨_ :: laps, rfl, rfl, .cons hleg htrip⟩

theorem Trip.made_of_mem (h : Trip resolver inner laps t s t' s') (hmem : lap ∈ laps) :
    ∃ s s', lap.leg.Made resolver inner lap.start s lap.writes lap.stop s' := by
  induction h with
  | nil => cases hmem
  | cons hleg _ ih =>
    rcases List.mem_cons.1 hmem with rfl | hmem
    · exact ⟨_, _, hleg⟩
    · exact ih hmem

/-- A request is sent by an attempt. -/
theorem Trip.attempt_of_sent (h : Trip resolver inner laps t s t' s') (hmem : lap ∈ laps) {request : Request}
    (hsent : request ∈ sentIn lap.writes) : ∃ call o s s', lap.leg = .attempt call o ∧
      Ends (inner call) lap.start s lap.writes o lap.stop s' := by
  obtain ⟨s, s', hmade⟩ := h.made_of_mem hmem
  cases hleg : lap.leg with
  | attempt call o =>
    rw [hleg] at hmade
    exact ⟨call, o, s, s', rfl, hmade⟩
  | lookup | log | tell | rest =>
    rw [hleg] at hmade
    rw [hmade.sentIn_eq_nil rfl] at hsent
    cases hsent

theorem sentIn_flatMap (laps : List (Lap ε)) :
    sentIn (laps.flatMap Lap.writes) = laps.flatMap fun lap => sentIn lap.writes := by
  induction laps with
  | nil => rfl
  | cons lap laps ih => rw [List.flatMap_cons, sentIn_append, ih, List.flatMap_cons]

end Laps

/-! ## Retries under any policy -/

/-- Uses of the service inside, with other legs between them. -/
inductive Repeats (inside : Course) : List Leg → Prop
  | nil : Repeats inside []
  | round {part more : List Leg} {r : Outcome} : inside part r → Repeats inside more →
      Repeats inside (part ++ more)
  | between {leg : Leg} {more : List Leg} : leg.outcome? = none → Repeats inside more →
      Repeats inside (leg :: more)

section Policies

variable {resolver : Option (Resolver ε)} {inner : Service ε} {inside : Course} {work : Stage ε Outcome}

theorem Repeats.once {part : List Leg} {r : Outcome} (h : inside part r) : Repeats inside part := by
  have hone := Repeats.round h .nil
  rwa [List.append_nil] at hone

/-- Whatever a policy decides, a call that is retried uses the service inside again and again. -/
theorem attemptsFrom_repeats (policy : RetryPolicy) (listeners : List Listener) (method : String)
    (hwork : Takes resolver inner work inside) (room : Nat) : ∀ attempt,
    Takes resolver inner (attemptsFrom policy listeners work method room attempt)
      fun legs _ => Repeats inside legs := by
  induction room with
  | zero =>
    intro attempt t s ws r t' s' h
    obtain ⟨rfl, rfl, rfl, rfl⟩ := ends_done.1 h
    exact ⟨[], .nil, .nil⟩
  | succ room ih =>
    intro attempt t s ws r t' s' h
    obtain ⟨us, o, t₁, s₁, vs, rfl, hround, hrest⟩ := (ends_andThen _ _).1 h
    obtain ⟨legs, hjourney, hinside⟩ := hwork _ _ _ _ _ _ hround
    cases o with
    | ok response =>
      obtain ⟨rfl, rfl, rfl, rfl⟩ := ends_done.1 hrest
      rw [List.append_nil]
      exact ⟨legs, hjourney, .once hinside⟩
    | error e =>
      dsimp only at hrest
      split at hrest
      · obtain ⟨rfl, rfl, rfl, rfl⟩ := ends_done.1 hrest
        rw [List.append_nil]
        exact ⟨legs, hjourney, .once hinside⟩
      · obtain ⟨us', _, t₂, s₂, vs', rfl, hlog, hend⟩ := (ends_andThen _ _).1 hrest
        obtain ⟨rfl, rfl, rfl, rfl⟩ := ends_done.1 hend
        exact ⟨_, hjourney.append (.log hlog .nil), .round hinside (.between rfl .nil)⟩
      · obtain ⟨us₁, _, t₂, s₂, vs₁, rfl, hlog, hrest⟩ := (ends_andThen _ _).1 hrest
        obtain ⟨us₂, _, t₃, s₃, vs₂, rfl, htell, hrest⟩ := (ends_andThen _ _).1 hrest
        obtain ⟨us₃, _, t₄, s₄, vs₃, rfl, hsleep, hrest⟩ := (ends_andThen _ _).1 hrest
        obtain ⟨more, hjourney', hmore⟩ := ih _ _ _ _ _ _ _ hrest
        exact ⟨_, hjourney.append (.log hlog (.tell htell (.rest hsleep hjourney'))),
          .round hinside (.between rfl (.between rfl (.between rfl hmore)))⟩

end Policies

end ResilientClient.Pipeline
