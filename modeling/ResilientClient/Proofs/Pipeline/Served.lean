/-
What one call to a guarded service comes to. The service inside and the fallback each keep a state of
their own, and a record of the calls they get is kept for both. Every call that ends has been served in one
of three ways (`served_of_ends`): it was rejected, it was admitted and its outcome is returned, or it was
admitted and failed. In each the service inside, the breakers and the fallback are used as often as that
way says, whatever other calls do in the meantime.
-/
import ResilientClient.Pipeline.Guard
import ResilientClient.Proofs.Breaker.Registry
import ResilientClient.Proofs.Pipeline.Record

open ResilientClient.Fiber

namespace ResilientClient

namespace Pipeline

/-! ## The two sides of a guard -/

/-- A call to a fallback. -/
structure Plea where
  method : String
  args : List Argument
  cause : Error
deriving DecidableEq, Repr

/-- What the service inside a guard and its fallback keep, and the calls that each of them got, the latest
first. -/
structure Sides (ι φ : Type) where
  inner : ι
  calls : List (Instant × Call)
  fallback : φ
  pleas : List Plea

variable {ι φ : Type}

/-- What a service does that works on a state of its own. -/
abbrev Inside (ι : Type) := Call → Fiber ι Outcome

/-- What a fallback does that works on a state of its own. -/
abbrev StandIn (φ : Type) := String → List Argument → Error → Fiber φ Outcome

def innerOf (w : World (Sides ι φ)) : ι := w.outside.own.inner

def putInner (inner : ι) (w : World (Sides ι φ)) : World (Sides ι φ) :=
  { w with outside := { w.outside with own := { w.outside.own with inner } } }

/-- Adds a call to the record of the service inside. -/
def attend (t : Instant) (call : Call) (w : World (Sides ι φ)) : World (Sides ι φ) :=
  { w with outside :=
    { w.outside with own := { w.outside.own with calls := (t, call) :: w.outside.own.calls } } }

/-- The service inside, on record. -/
def attended (inner : Inside ι) : Service (Sides ι φ) :=
  fun call =>
    (Fiber.modifyGet fun t w => ((), attend t call w)).andThen fun _ =>
      (inner call).zoom innerOf putInner

def fallbackOf (o : Outside (Sides ι φ)) : φ := o.own.fallback

def putFallback (fallback : φ) (o : Outside (Sides ι φ)) : Outside (Sides ι φ) :=
  { o with own := { o.own with fallback } }

/-- Adds a call to the record of the fallback. -/
def plead (plea : Plea) (o : Outside (Sides ι φ)) : Outside (Sides ι φ) :=
  { o with own := { o.own with pleas := plea :: o.own.pleas } }

/-- The fallback, on record. -/
def standingIn (fallback : StandIn φ) : Fallback (Sides ι φ) :=
  fun method args cause =>
    (Fiber.modify (plead ⟨method, args, cause⟩)).andThen fun _ =>
      (fallback method args cause).zoom fallbackOf putFallback

/-- The guard of a key around a service, with a fallback or without, both on record. -/
def guardingBoth (key : String) (limit : Option Duration) (fallback : Option (StandIn φ))
    (inner : Inside ι) : Service (Sides ι φ) :=
  guarding key limit (fallback.map standingIn) (attended inner)

/-! ## What is on record -/

/-- The calls that the service inside got. -/
abbrev callsIn (ws : List (Write (World (Sides ι φ)))) : List (Instant × Call) :=
  gainedIn (fun w => w.outside.own.calls) ws

/-- The calls that the fallback got. -/
abbrev pleasIn (ws : List (Write (World (Sides ι φ)))) : List Plea :=
  gainedIn (fun w => w.outside.own.pleas) ws

/-- The breakers are as they were. -/
def KeepsBreakers (ws : List (Write (World (Sides ι φ)))) : Prop :=
  ∀ w ∈ ws, w.after.breakers = w.before.breakers

/-! ## What a call comes to -/

/-- What an outcome says about the service. -/
def verdictOf : Outcome → Verdict
  | .ok _ => .success
  | .error e => if isOwnFault e then .ignored else .failure

/-- How a call to the service inside, made at `t`, comes to an outcome: it ends within the limit, or it
still waits when the limit is reached. -/
inductive Attempted (inner : Inside ι) (limit : Option Duration) (call : Call) (t : Instant) :
    Outcome → Instant → Prop
  | ended {s s' : ι} {ws : List (Write ι)} {o : Outcome} {t' : Instant} :
      Ends (inner call) t s ws o t' s' → (∀ d, limit = some d → t' ≤ t + waitOf d) →
      Attempted inner limit call t o t'
  | cutOff {d : Duration} {s s' : ι} {ws : List (Write ι)} {wait : Nat} {drop : ι → ι}
      {rest : Fiber ι Outcome} {t' : Instant} :
      limit = some d → Goes (inner call) t s ws (.pause wait drop rest) t' s' →
      t' ≤ t + waitOf d → t + waitOf d < t' + wait →
      Attempted inner limit call t (.error (.executionTimeout call.method d)) (t + waitOf d)

/-- How a call ends whose failure is known at `t`: the fallback is called for it once, and its result is
returned; without one the failure itself is. -/
inductive Recovered (fallback : Option (StandIn φ)) (call : Call) (cause : Error) (t : Instant) :
    List Plea → Outcome → Prop
  | unaided : fallback = none → Recovered fallback call cause t [] (.error cause)
  | aided {f : StandIn φ} {s s' : φ} {ws : List (Write φ)} {r : Outcome} {t' : Instant} :
      fallback = some f → Ends (f call.method call.args cause) t s ws r t' s' →
      Recovered fallback call cause t [⟨call.method, call.args, cause⟩] r

/-- The breaker of the key rejects a call made at `t`: no breaker changes, the service inside is not called,
and the rejection is the failure that the call ends with or recovers from. -/
structure Rejected (key : String) (fallback : Option (StandIn φ)) (call : Call) (t : Instant)
    (asked : Write (World (Sides ι φ))) (after : List (Write (World (Sides ι φ)))) (r : Outcome) :
    Prop where
  time : asked.time = t
  answer : (asked.before.breakers.acquire key t).1 = none
  kept : asked.after.breakers.get? = asked.before.breakers.get?
  recovery : KeepsBreakers after
  calls : callsIn (asked :: after) = []
  recovered : Recovered fallback call (.circuitOpen key) t (pleasIn (asked :: after)) r

/-- The breaker of the key admits a call made at `t`, and the outcome of the service inside is reported. -/
structure Admitted (key : String) (limit : Option Duration) (inner : Inside ι) (call : Call) (t : Instant)
    (asked : Write (World (Sides ι φ))) (during : List (Write (World (Sides ι φ))))
    (reported : Write (World (Sides ι φ))) (o : Outcome) : Prop where
  time : asked.time = t
  counted : asked.after.breakers = (asked.before.breakers.acquire key t).2.1
  during : KeepsBreakers during
  attempted : Attempted inner limit call t o reported.time
  settled : ∃ permit, (asked.before.breakers.acquire key t).1 = some permit ∧
    reported.after.breakers =
      (reported.before.breakers.report permit reported.time (verdictOf o)).1

/-- How a call made at `t` is served. -/
inductive Served (key : String) (limit : Option Duration) (fallback : Option (StandIn φ))
    (inner : Inside ι) (call : Call) (t : Instant) :
    List (Write (World (Sides ι φ))) → Outcome → Prop
  | rejected {asked : Write (World (Sides ι φ))} {after : List (Write (World (Sides ι φ)))}
      {r : Outcome} :
      Rejected key fallback call t asked after r → Served key limit fallback inner call t (asked :: after) r
  /-- The call is admitted, and what it ends with is returned. -/
  | returned {asked reported : Write (World (Sides ι φ))}
      {during : List (Write (World (Sides ι φ)))} {o : Outcome} :
      Admitted key limit inner call t asked during reported o → verdictOf o ≠ .failure →
      callsIn (asked :: during ++ [reported]) = [(t, call)] →
      pleasIn (asked :: during ++ [reported]) = [] →
      Served key limit fallback inner call t (asked :: during ++ [reported]) o
  /-- The call is admitted, and it fails. -/
  | failed {asked reported : Write (World (Sides ι φ))}
      {during after : List (Write (World (Sides ι φ)))} {e : Error} {r : Outcome} :
      Admitted key limit inner call t asked during reported (.error e) →
      verdictOf (.error e) = .failure → KeepsBreakers after →
      callsIn (asked :: during ++ reported :: after) = [(t, call)] →
      Recovered fallback call e reported.time (pleasIn (asked :: during ++ reported :: after)) r →
      Served key limit fallback inner call t (asked :: during ++ reported :: after) r

/-! ## Requests and reports -/

section Steps

variable {ε : Type} {key : String} {t t' : Instant} {s s' : World ε} {ws : List (Write (World ε))}

/-- A request is one write, to the breakers. -/
theorem ends_acquire {answer : Option Permit} (h : Ends (acquire key) t s ws answer t' s') :
    ∃ w : Write (World ε), ws = [w] ∧ w.time = t ∧ w.before = s ∧ w.after = s' ∧ t' = t ∧
      answer = (s.breakers.acquire key t).1 ∧ s'.breakers = (s.breakers.acquire key t).2.1 ∧
      s'.outside = s.outside := by
  obtain ⟨rfl, rfl, rfl, rfl⟩ := ends_modifyGet.1 h
  exact ⟨_, rfl, rfl, rfl, rfl, rfl, rfl, rfl, rfl⟩

/-- A report is one write, to the breakers. -/
theorem ends_report {permit : Permit} {v : Verdict} {u : Unit}
    (h : Ends (report permit v) t s ws u t' s') :
    ∃ w : Write (World ε), ws = [w] ∧ w.time = t ∧ t' = t ∧
      w.after.breakers = (w.before.breakers.report permit t v).1 ∧ w.after.outside = w.before.outside := by
  obtain ⟨rfl, -, rfl, rfl⟩ := ends_modifyGet.1 h
  exact ⟨_, rfl, rfl, rfl, rfl, rfl⟩

end Steps

section Parts

variable {t t' : Instant} {s s' : World (Sides ι φ)} {ws : List (Write (World (Sides ι φ)))}

/-! ## The fallback -/

/-- The work of a fallback is one call on record, and then its own. -/
theorem ends_standingIn {f : StandIn φ} {call : Call} {cause : Error} {r : Outcome}
    (h : Ends (Stage.outside (standingIn f call.method call.args cause)) t s ws r t' s') :
    KeepsBreakers ws ∧ callsIn ws = [] ∧ pleasIn ws = [⟨call.method, call.args, cause⟩] ∧
      ∃ (p p' : φ) (vs : List (Write φ)), Ends (f call.method call.args cause) t p vs r t' p' := by
  obtain ⟨hwork, hframe⟩ := ends_outside h
  obtain ⟨us, _, t₁, o₁, vs, hsplit, hplead, hown⟩ := (ends_andThen _ _).1 hwork
  obtain ⟨rfl, rfl, rfl⟩ := ends_modify.1 hplead
  obtain ⟨hf, hfallback⟩ := ends_zoom (fun _ _ => rfl) _ hown
  have hcalls : gainedIn (fun o : Outside (Sides ι φ) => o.own.calls) vs = [] :=
    gainedIn_of_kept fun w hw => by rw [hfallback w hw]; rfl
  have hpleas : gainedIn (fun o : Outside (Sides ι φ) => o.own.pleas) vs = [] :=
    gainedIn_of_kept fun w hw => by rw [hfallback w hw]; rfl
  refine ⟨fun w hw => by rw [hframe w hw], ?_, ?_, _, _, _, hf⟩
  · have h := gainedIn_map World.outside (fun o : Outside (Sides ι φ) => o.own.calls) ws
    rw [hsplit, gainedIn_append, hcalls] at h
    simpa [plead] using h.symm
  · have h := gainedIn_map World.outside (fun o : Outside (Sides ι φ) => o.own.pleas) ws
    rw [hsplit, gainedIn_append, hpleas] at h
    simpa [plead] using h.symm

/-- A recovery touches neither the breakers nor the service inside. -/
theorem recovered_of_ends {fallback : Option (StandIn φ)} {call : Call} {cause : Error} {r : Outcome}
    (h : Ends (recover (fallback.map standingIn) call cause) t s ws r t' s') :
    KeepsBreakers ws ∧ callsIn ws = [] ∧ Recovered fallback call cause t (pleasIn ws) r := by
  cases fallback with
  | none =>
    obtain ⟨rfl, rfl, rfl, rfl⟩ := ends_done.1 h
    exact ⟨fun w hw => absurd hw List.not_mem_nil, rfl, .unaided rfl⟩
  | some f =>
    obtain ⟨_, _, t₁, s₁, us, hws, hlog, hrest⟩ := (ends_andThen _ _).1 h
    obtain ⟨rfl, rfl, rfl⟩ := ends_note hlog
    obtain ⟨_, _, t₂, s₂, vs, rfl, hnote, hwork⟩ := (ends_andThen _ _).1 hrest
    obtain ⟨rfl, rfl, rfl⟩ := ends_note hnote
    obtain ⟨hbreakers, hcalls, hpleas, p, p', ws', hf⟩ := ends_standingIn hwork
    have hall : pleasIn ws = [⟨call.method, call.args, cause⟩] := by
      rw [hws]; simpa [World.note] using hpleas
    refine ⟨?_, ?_, hall ▸ .aided rfl hf⟩
    · intro w hw
      simp only [hws, List.cons_append, List.nil_append, List.mem_cons] at hw
      rcases hw with rfl | rfl | hw
      · rfl
      · rfl
      · exact hbreakers w hw
    · rw [hws]; simpa [World.note] using hcalls

/-! ## The service inside -/

/-- The writes of the service inside, the first of which puts the call on record. -/
structure Attending (call : Call) (t : Instant) (ws : List (Write (World (Sides ι φ)))) : Prop where
  breakers : KeepsBreakers ws
  calls : callsIn ws = [(t, call)]
  pleas : pleasIn ws = []

/-- The record of a call, and then writes to what the service inside keeps. -/
theorem attending_of_frame {call : Call} (h : ∀ w ∈ ws, w.after = putInner (innerOf w.after) w.before) :
    Attending call t (⟨t, s, attend t call s⟩ :: ws) := by
  have hcalls : callsIn ws = [] := gainedIn_of_kept fun w hw => by rw [h w hw]; rfl
  have hpleas : pleasIn ws = [] := gainedIn_of_kept fun w hw => by rw [h w hw]; rfl
  constructor
  · intro w hw
    rcases List.mem_cons.1 hw with rfl | hw
    · rfl
    · rw [h w hw]; rfl
  · simpa [attend] using hcalls
  · simpa [attend] using hpleas

theorem ends_attended {inner : Inside ι} {call : Call} {o : Outcome}
    (h : Ends (attended inner call) t s ws o t' s') :
    Attending call t ws ∧ ∃ (i i' : ι) (vs : List (Write ι)), Ends (inner call) t i vs o t' i' := by
  obtain ⟨_, _, t₁, s₁, us, rfl, hrecord, hwork⟩ := (ends_andThen _ _).1 h
  obtain ⟨rfl, -, rfl, rfl⟩ := ends_modifyGet.1 hrecord
  obtain ⟨hinner, hframe⟩ := ends_zoom (fun _ _ => rfl) _ hwork
  exact ⟨attending_of_frame hframe, _, _, _, hinner⟩

/-- A call that the service inside still has to wait in. -/
theorem goes_attended_pause {inner : Inside ι} {call : Call} {wait : Nat}
    {drop : World (Sides ι φ) → World (Sides ι φ)} {rest : Stage (Sides ι φ) Outcome}
    (h : Goes (attended inner call) t s ws (.pause wait drop rest) t' s') :
    (∃ (i i' : ι) (vs : List (Write ι)) (drop' : ι → ι) (rest' : Fiber ι Outcome),
      Goes (inner call) t i vs (.pause wait drop' rest') t' i') ∧
      ∀ (last : World (Sides ι φ)) (t₁ : Instant), Attending call t (ws ++ [⟨t₁, last, drop last⟩]) := by
  cases h with | look h => cases h with | store h =>
  obtain ⟨drop', rest', hinner, rfl, hframe⟩ := goes_zoom_pause (fun _ _ => rfl) _ h
  refine ⟨⟨_, _, _, drop', rest', hinner⟩, fun last t₁ => attending_of_frame ?_⟩
  intro w hw
  rcases List.mem_append.1 hw with hw | hw
  · exact hframe w hw
  · obtain rfl := List.mem_singleton.1 hw
    rfl

/-- An attempt within the limit is one call of the service inside. -/
theorem attempted_of_ends {inner : Inside ι} {limit : Option Duration} {call : Call} {o : Outcome}
    (h : Ends (limited limit call.method (attended inner call)) t s ws o t' s') :
    Attending call t ws ∧ Attempted inner limit call t o t' := by
  cases limit with
  | none =>
    obtain ⟨hattending, i, i', vs, hinner⟩ := ends_attended h
    exact ⟨hattending, .ended hinner fun d hd => by cases hd⟩
  | some d =>
    obtain ⟨us, result, t₁, s₁, vs, rfl, hwithin, hend⟩ := (ends_andThen _ _).1 h
    rcases ends_within _ hwithin with ⟨o', rfl, hinner, ht⟩ |
      ⟨us', wait, drop, rest, t₂, s₂, last, rfl, hgoes, ht, hlate, rfl, rfl, rfl⟩
    · obtain ⟨rfl, rfl, rfl, rfl⟩ := ends_done.1 hend
      obtain ⟨hattending, i, i', ws', hinner⟩ := ends_attended hinner
      rw [List.append_nil]
      exact ⟨hattending, .ended hinner fun d' hd => by cases hd; exact ht⟩
    · obtain ⟨rfl, rfl, rfl, rfl⟩ := ends_done.1 hend
      obtain ⟨⟨i, i', ws', drop', rest', hinner⟩, hattending⟩ := goes_attended_pause hgoes
      rw [List.append_nil]
      exact ⟨hattending last _, .cutOff rfl hinner ht hlate⟩

/-! ## Conclusions -/

/-- What follows the report of an outcome: nothing, or the recovery from a failure. -/
def Concluded (fallback : Option (StandIn φ)) (call : Call) (t : Instant) (o : Outcome)
    (after : List (Write (World (Sides ι φ)))) (r : Outcome) : Prop :=
  verdictOf o ≠ .failure ∧ after = [] ∧ r = o ∨
  ∃ e, o = .error e ∧ verdictOf (.error e) = .failure ∧ KeepsBreakers after ∧ callsIn after = [] ∧
    Recovered fallback call e t (pleasIn after) r

/-- A conclusion begins with the report. -/
theorem concluded_of_ends {fallback : Option (StandIn φ)} {call : Call} {permit : Permit} {o r : Outcome}
    (h : Ends (conclude (fallback.map standingIn) call permit o) t s ws r t' s') :
    ∃ (reported : Write (World (Sides ι φ))) (after : List (Write (World (Sides ι φ)))),
      ws = reported :: after ∧ reported.time = t ∧
      reported.after.breakers = (reported.before.breakers.report permit t (verdictOf o)).1 ∧
      reported.after.outside = reported.before.outside ∧ Concluded fallback call t o after r := by
  cases o with
  | ok response =>
    obtain ⟨_, _, t₁, s₁, after, rfl, hreport, hend⟩ := (ends_andThen _ _).1 h
    obtain ⟨reported, rfl, htime, rfl, hb, hout⟩ := ends_report hreport
    obtain ⟨rfl, rfl, rfl, rfl⟩ := ends_done.1 hend
    exact ⟨reported, [], rfl, htime, hb, hout, .inl ⟨by simp [verdictOf], rfl, rfl⟩⟩
  | error e =>
    simp only [conclude] at h
    by_cases hown : isOwnFault e
    · have hverdict : verdictOf (.error e) = .ignored := if_pos hown
      rw [if_pos hown] at h
      obtain ⟨_, _, t₁, s₁, after, rfl, hreport, hend⟩ := (ends_andThen _ _).1 h
      obtain ⟨reported, rfl, htime, rfl, hb, hout⟩ := ends_report hreport
      obtain ⟨rfl, rfl, rfl, rfl⟩ := ends_done.1 hend
      exact ⟨reported, [], rfl, htime, hverdict ▸ hb, hout, .inl ⟨by simp [hverdict], rfl, rfl⟩⟩
    · have hverdict : verdictOf (.error e) = .failure := if_neg hown
      rw [if_neg hown] at h
      obtain ⟨_, _, t₁, s₁, after, rfl, hreport, hrecover⟩ := (ends_andThen _ _).1 h
      obtain ⟨reported, rfl, htime, rfl, hb, hout⟩ := ends_report hreport
      exact ⟨reported, after, rfl, htime, hverdict ▸ hb, hout,
        .inr ⟨e, rfl, hverdict, recovered_of_ends hrecover⟩⟩

/-! ## All ways through the guard -/

/-- A call that finds its breaker rejecting is rejected. -/
theorem rejected_of_ends {key : String} {limit : Option Duration} {fallback : Option (StandIn φ)}
    {inner : Inside ι} {call : Call} {r : Outcome} (hnone : (s.breakers.acquire key t).1 = none)
    (h : Ends (guardingBoth key limit fallback inner call) t s ws r t' s') :
    ∃ asked after, ws = asked :: after ∧ Rejected key fallback call t asked after r := by
  obtain ⟨_, answer, t₁, s₁, vs, rfl, hask, hnext⟩ := (ends_andThen _ _).1 h
  obtain ⟨asked, rfl, htime, rfl, rfl, rfl, rfl, hcounted, hout⟩ := ends_acquire hask
  rw [hnone] at hnext
  obtain ⟨_, _, t₂, s₂, after, rfl, hlog, hrecover⟩ := (ends_andThen _ _).1 hnext
  obtain ⟨rfl, rfl, rfl⟩ := ends_note hlog
  obtain ⟨hbreakers, hcalls, hrecovered⟩ := recovered_of_ends hrecover
  refine ⟨asked, _ :: after, rfl, htime, hnone, ?_, ?_, ?_, ?_⟩
  · rw [hcounted]; exact BreakerRegistry.get?_acquire_of_none hnone
  · intro w hw
    rcases List.mem_cons.1 hw with rfl | hw
    · rfl
    · exact hbreakers w hw
  · simpa [hout, World.note] using hcalls
  · simpa [hout, World.note] using hrecovered

/-- Every call that ends was served. -/
theorem served_of_ends {key : String} {limit : Option Duration} {fallback : Option (StandIn φ)}
    {inner : Inside ι} {call : Call} {r : Outcome}
    (h : Ends (guardingBoth key limit fallback inner call) t s ws r t' s') :
    Served key limit fallback inner call t ws r := by
  cases hanswer : (s.breakers.acquire key t).1 with
  | none =>
    obtain ⟨asked, after, rfl, hrejected⟩ := rejected_of_ends hanswer h
    exact .rejected hrejected
  | some permit =>
    obtain ⟨_, answer, t₁, s₁, vs, rfl, hask, hnext⟩ := (ends_andThen _ _).1 h
    obtain ⟨asked, rfl, htime, rfl, rfl, rfl, rfl, hcounted, hout⟩ := ends_acquire hask
    rw [hanswer] at hnext
    obtain ⟨during, o, t₂, s₂, us, rfl, hlimited, hconclude⟩ := (ends_andThen _ _).1 hnext
    obtain ⟨hattending, hattempted⟩ := attempted_of_ends ((ends_protect _ _).1 hlimited)
    obtain ⟨reported, after, rfl, rfl, hreported, hout', hconcluded⟩ := concluded_of_ends hconclude
    have hadmitted : Admitted key limit inner call t₁ asked during reported o :=
      ⟨htime, hcounted, hattending.breakers, hattempted, permit, hanswer, hreported⟩
    -- neither the request nor the report is on record
    have hcalls : ∀ vs, callsIn (asked :: during ++ reported :: vs) = (t₁, call) :: callsIn vs := by
      intro vs
      simp [hout, hout', hattending.calls]
    have hpleas : ∀ vs, pleasIn (asked :: during ++ reported :: vs) = pleasIn vs := by
      intro vs
      simp [hout, hout', hattending.pleas]
    rcases hconcluded with ⟨hverdict, rfl, rfl⟩ | ⟨e, rfl, hverdict, hkept, hnone, hrecovered⟩
    · exact .returned hadmitted hverdict (hcalls []) (hpleas [])
    · exact .failed hadmitted hverdict hkept ((hcalls after).trans (by rw [hnone]))
        ((hpleas after).symm ▸ hrecovered)

end Parts

end Pipeline

end ResilientClient
