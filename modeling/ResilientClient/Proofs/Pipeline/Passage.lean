/-
Attempts at a breaker that nobody else uses. An attempt touches its breaker when it begins and when its outcome
is reported, and not in between, even if it is cut off. So what becomes of the breaker on a journey is decided by
the attempts on it: one that finds the breaker closed sends its request and has its outcome reported
(`passed_of_closed`), and one that finds it asleep is rejected and leaves it as it is (`rejected_of_asleep`).
-/
import ResilientClient.Proofs.Pipeline.Served
import ResilientClient.Proofs.Pipeline.Timetable

open ResilientClient.Fiber

namespace ResilientClient.Pipeline

variable {ε α : Type}

/-! ## Writes that spare the breakers -/

/-- The breakers are as they were. -/
def Spares (w : Write (World ε)) : Prop := w.after.breakers = w.before.breakers

/-- Whatever is noted and whatever collaborators do spares the breakers. -/
theorem noting_spares :
    Noting (fun _ => True) (fun _ _ => True) (fun s s' : World ε => s'.breakers = s.breakers) where
  note _ _ _ := rfl
  work _ _ _ := rfl

theorem spares_note (os : List Occurrence) : Writes Spares (Stage.note os : Stage ε Unit) :=
  (noting_spares.notes fun _ _ => trivial).writes

theorem spares_choose (look : Resolver ε) (service : String) (server : Option Server) :
    Writes Spares (choose look service server) :=
  (noting_spares.choose (fun _ => obeys_true _) service (fun _ => trivial) server).writes

/-- An attempt spares the breakers even if it is cut off. -/
theorem spares_limited (limit : Option Duration) (method : String) (exchange : Exchange ε) (call : Call) :
    Writes Spares (limited limit method (executing exchange call)) := by
  have hexecuting : Obeys (fun s s' : World ε => s'.breakers = s.breakers) (executing exchange call) :=
    noting_spares.executing (fun _ => obeys_true _) (fun _ _ => obeys_true _) (fun _ _ _ => trivial)
      (fun _ _ => noting_spares.one trivial) fun _ _ => trivial
  exact (obeys_limited hexecuting limit method).writes

/-- Only attempts use the breakers. -/
theorem Leg.Made.spares {resolver : Option (Resolver ε)} {inner : Service ε} {leg : Leg} {t t' : Instant}
    {s s' : World ε} {ws : List (Write (World ε))} (h : leg.Made resolver inner t s ws t' s')
    (hleg : leg.outcome? = none) : ∀ w ∈ ws, Spares w := by
  cases leg with
  | attempt call o => cases hleg
  | lookup service outcome => obtain ⟨look, -, hlookup⟩ := h; exact spares_choose _ _ _ hlookup
  | log line => exact spares_note _ h
  | tell listeners event => exact spares_note _ h
  | rest delay => exact writes_sleep _ h

/-! ## The breaker of a key -/

/-- The breaker of a key, if there is one. -/
def breakerOf (key : String) (w : World ε) : Option Breaker := w.breakers.get? key

section Breakers

variable {key : String} {b : Breaker} {v v' : Option Breaker} {t t' : Instant} {s s' : World ε}
  {ws : List (Write (World ε))} {call : Call} {o : Outcome} {limit : Option Duration} {inner : Service ε}

theorem eq_of_spares (hc : Carried (breakerOf key) v ws v') (hspares : ∀ w ∈ ws, Spares w) : v' = v :=
  hc.of_kept fun w hw => congrArg (BreakerRegistry.get? · key) (hspares w hw)

/-- A request is answered by the breaker of the key. -/
theorem carried_acquire {answer : Option Permit} (h : Ends (acquire key) t s ws answer t' s')
    (hc : Carried (breakerOf key) (some b) ws v) :
    answer = (b.acquire t).1.map (fun trial => ⟨key, trial⟩) ∧ v = some (b.acquire t).2.1 ∧ t' = t := by
  obtain ⟨w, rfl, -, rfl, rfl, rfl, rfl, hafter, -⟩ := ends_acquire h
  obtain ⟨hbefore, hlast⟩ := carried_cons.1 hc
  refine ⟨?_, ?_, rfl⟩
  · rw [BreakerRegistry.acquire_of_some hbefore]
  · rw [carried_nil.1 hlast, breakerOf, hafter, BreakerRegistry.get?_acquire_of_some hbefore]

theorem carried_report {trial : Bool} {verdict : Verdict} {u : Unit}
    (h : Ends (report ⟨key, trial⟩ verdict) t s ws u t' s') (hc : Carried (breakerOf key) (some b) ws v) :
    v = some (b.report t trial verdict).1 ∧ t' = t := by
  obtain ⟨w, rfl, -, rfl, hafter, -⟩ := ends_report h
  obtain ⟨hbefore, hlast⟩ := carried_cons.1 hc
  refine ⟨?_, rfl⟩
  rw [carried_nil.1 hlast, breakerOf, hafter]
  exact BreakerRegistry.get?_report_of_some hbefore

/-- Without a fallback the outcome is reported and returned. -/
theorem conclude_none (call : Call) (permit : Permit) (o : Outcome) :
    (conclude none call permit o : Stage ε Outcome) =
      (report permit (verdictOf o)).andThen fun _ => .done o := by
  cases o with
  | ok response => rfl
  | error e =>
    simp only [conclude, verdictOf, recover]
    split <;> rfl

/-- An attempt that finds its breaker asleep is rejected. -/
theorem rejected_of_asleep (hopened : b.state = .opened) (hasleep : b.sleptEnough t = false)
    (h : Ends (guarding key limit none inner call) t s ws o t' s') (hc : Carried (breakerOf key) (some b) ws v) :
    sentIn ws = [] ∧ o = .error (.circuitOpen key) ∧ v = some b := by
  obtain ⟨us, answer, t₁, s₁, vs, rfl, hacquire, hrest⟩ := (ends_andThen _ _).1 h
  obtain ⟨v₁, hasked, hlater⟩ := carried_append.1 hc
  obtain ⟨hanswer, rfl, rfl⟩ := carried_acquire hacquire hasked
  rw [Breaker.acquire_of_asleep hopened hasleep] at hanswer hlater
  subst hanswer
  obtain ⟨us', _, t₂, s₂, vs', rfl, hlog, hend⟩ := (ends_andThen _ _).1 hrest
  obtain ⟨rfl, rfl, rfl, rfl⟩ := ends_done.1 hend
  rw [List.append_nil] at hlater
  refine ⟨?_, rfl, eq_of_spares hlater (spares_note _ hlog)⟩
  rw [sentIn_append, sentIn_append, mute_acquire _ hacquire, mute_log _ hlog]
  rfl

/-- An attempt that finds its breaker closed sends its request, and its outcome is reported when it ends. -/
theorem passed_of_closed {exchange : Exchange ε} (hclosed : b.state = .closed)
    (h : Ends (guarding key limit none (executing exchange) call) t s ws o t' s')
    (hc : Carried (breakerOf key) (some b) ws v) :
    sentIn ws = (prepare exchange.interceptors call).toOption.toList ∧
      v = some ((b.rollWindow t).report t' false (verdictOf o)).1 := by
  obtain ⟨us, answer, t₁, s₁, vs, rfl, hacquire, hrest⟩ := (ends_andThen _ _).1 h
  obtain ⟨v₁, hasked, hlater⟩ := carried_append.1 hc
  obtain ⟨hanswer, rfl, rfl⟩ := carried_acquire hacquire hasked
  rw [Breaker.acquire_of_closed hclosed] at hanswer hlater
  subst hanswer
  obtain ⟨us', o', t₂, s₂, vs', rfl, hattempt, hconclude⟩ := (ends_andThen _ _).1 hrest
  obtain ⟨v₂, hduring, hreported⟩ := carried_append.1 hlater
  have hlimited := (ends_protect _ _).1 hattempt
  obtain rfl := eq_of_spares hduring (spares_limited _ _ _ _ hlimited)
  rw [conclude_none] at hconclude
  obtain ⟨us'', _, t₃, s₃, vs'', rfl, hreport, hend⟩ := (ends_andThen _ _).1 hconclude
  obtain ⟨rfl, rfl, rfl, rfl⟩ := ends_done.1 hend
  rw [List.append_nil] at hreported
  obtain ⟨rfl, rfl⟩ := carried_report hreport hreported
  refine ⟨?_, rfl⟩
  rw [List.append_nil, sentIn_append, sentIn_append, mute_acquire _ hacquire, sentIn_limited_eq hlimited,
    mute_report _ _ hreport, List.append_nil]
  rfl

end Breakers

end ResilientClient.Pipeline
