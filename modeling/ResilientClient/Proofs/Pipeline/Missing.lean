/-
Answers with status 404. Whether a 404 counts as an empty answer is asked only when there is one: up to the first
such answer pipelines with and without `decode404` do the same (`agree_executing` and the layers around it). With
it the answer ends its attempt as a success at that instant, whatever else came with it, and through all layers
nothing is left to do but that the listeners are told and the breaker records the success (`Closing`).
-/
import ResilientClient.Pipeline.Balance
import ResilientClient.Pipeline.Retry
import ResilientClient.Proofs.Fiber.AtOnce
import ResilientClient.Proofs.Fiber.Until
import ResilientClient.Proofs.Pipeline.Narration
import ResilientClient.Proofs.Pipeline.Passage

open ResilientClient.Fiber

namespace ResilientClient.Pipeline

variable {ε α : Type}

/-! ## Answers -/

/-- The transport has answered a request with a 404. -/
def AnswersNotFound (request : Request) (s s' : World ε) : Prop :=
  .answered request (.ok .notFound) ∈ gained s.past s'.past

/-- There is an answer with a 404. -/
def Misses (s s' : World ε) : Prop := ∃ request, AnswersNotFound request s s'

/-- The occurrence is an answer with a 404. -/
def isNotFound : Occurrence → Bool
  | .answered _ (.ok status) => decide (status = .notFound)
  | _ => false

/-- No write of the stage is an answer with a 404. -/
abbrev NeverMisses (x : Stage ε α) : Prop := Writes (fun w => ¬ Misses w.before w.after) x

section Answers

variable {s s' : World ε} {os : List Occurrence}

theorem misses_iff : Misses s s' ↔ (gained s.past s'.past).any isNotFound = true := by
  rw [List.any_eq_true]
  constructor
  · rintro ⟨request, hmem⟩
    exact ⟨_, hmem, rfl⟩
  · rintro ⟨o, hmem, ho⟩
    unfold isNotFound at ho
    split at ho
    · rename_i request status
      obtain rfl := of_decide_eq_true ho
      exact ⟨request, hmem⟩
    · cases ho

instance (s s' : World ε) : Decidable (Misses s s') := decidable_of_iff _ misses_iff.symm

theorem misses_note : Misses s (s.note os) ↔ ∃ request, .answered request (.ok .notFound) ∈ os := by
  simp [Misses, AnswersNotFound, World.note, gained_append]

theorem not_misses_of_asides (h : Asides s s') : ¬ Misses s s' := by
  rintro ⟨request, hmem⟩
  obtain ⟨os, hos, hpast⟩ := h
  rw [AnswersNotFound, hpast, gained_append, List.reverse_reverse] at hmem
  exact hos _ hmem

theorem not_misses_of_kept (h : s'.past = s.past) : ¬ Misses s s' := by
  rintro ⟨request, hmem⟩
  rw [AnswersNotFound, h, gained_self] at hmem
  cases hmem

theorem answered_not_mem_told (listeners : List Listener) (event : Event) (request : Request)
    (outcome : Except Error Http.Status) : .answered request outcome ∉ World.told listeners event := by
  intro hmem
  obtain ⟨listener, -, hmem⟩ := List.mem_flatMap.1 hmem
  cases listener <;> simp [World.heardBy] at hmem

theorem not_misses_told (listeners : List Listener) (event : Event) :
    ¬ Misses s (s.note (World.told listeners event)) := by
  rintro h
  obtain ⟨request, hmem⟩ := misses_note.1 h
  exact answered_not_mem_told _ _ _ _ hmem

theorem neverMisses_of_asides {x : Stage ε α} (h : Obeys Asides x) : NeverMisses x :=
  fun _ _ _ _ _ _ hends w hw => not_misses_of_asides (h.writes hends w hw)

theorem neverMisses_note (hos : ∀ request, .answered request (.ok .notFound) ∉ os) :
    NeverMisses (Stage.note os : Stage ε Unit) :=
  writes_note fun _ _ h => by
    obtain ⟨request, hmem⟩ := misses_note.1 h
    exact hos request hmem

theorem neverMisses_tell (listeners : List Listener) (event : Event) :
    NeverMisses (Stage.tell listeners event : Stage ε Unit) :=
  neverMisses_note fun _ => answered_not_mem_told _ _ _ _

theorem neverMisses_outside (work : Fiber (Outside ε) α) : NeverMisses (Stage.outside work) :=
  neverMisses_of_asides (asides_outside work)

end Answers

/-! ## With the flag and without it -/

/-- Two services do the same up to an answer with a 404. -/
def AgreeUntilMissing (one other : Service ε) : Prop :=
  ∀ call s, AgreeUntil Misses (fun _ => True) (one call) (other call) s

section Agreement

variable {one other : Service ε}

/-- A response that comes without such an answer has another status. -/
theorem agree_send (exchange : Exchange ε) (request : Request) (s : World ε) :
    AgreeUntil Misses (fun o => ∀ response, o = .ok response → response.status ≠ .notFound)
      (send exchange request) (send exchange request) s := by
  refine agreeUntil_andThen fun _ s => agreeUntil_andThen fun _ s => agreeUntil_andThen fun started s =>
    agreeUntil_andThen fun answer s => ?_
  cases answer with
  | error e => exact agreeUntil_andThen fun _ s => .done nofun
  | ok response =>
    -- the answer is the next write
    refine .look fun t => .store fun hnone => ?_
    have hstatus : response.status ≠ .notFound := by
      intro h
      exact hnone (misses_note.2 ⟨request, by rw [h]; exact List.mem_singleton.2 rfl⟩)
    change AgreeUntil _ _ (Fiber.now.andThen _) (Fiber.now.andThen _) _
    refine agreeUntil_andThen fun ended s => agreeUntil_andThen fun _ s => .done ?_
    rintro _ ⟨⟩
    exact hstatus

theorem agree_executing (exchange : Exchange ε) (flag flag' : Bool) :
    AgreeUntilMissing (executing { exchange with decode404 := flag })
      (executing { exchange with decode404 := flag' }) := by
  intro call s
  unfold executing
  dsimp only
  split
  · exact .done trivial
  · refine (agree_send exchange _ s).andThen fun answer s hstatus => ?_
    cases answer with
    | error e => exact .done trivial
    | ok response =>
      -- no other status is looked up together with the flag
      have hother := hstatus response rfl
      unfold classify
      simp only [hother, and_false, if_false]
      exact agreeUntil_refl _ _

theorem agree_limited {x y : Stage ε Outcome} {s : World ε} (h : AgreeUntil Misses (fun _ => True) x y s)
    (limit : Option Duration) (method : String) :
    AgreeUntil Misses (fun _ => True) (limited limit method x) (limited limit method y) s := by
  cases limit with
  | none => exact h
  | some d => exact (h.within _).andThen fun result s _ => agreeUntil_refl _ _

theorem agree_guarding (h : AgreeUntilMissing one other) (key : String) (limit : Option Duration)
    (fallback : Option (Fallback ε)) :
    AgreeUntilMissing (guarding key limit fallback one) (guarding key limit fallback other) := by
  intro call s
  refine agreeUntil_andThen fun answer s => ?_
  cases answer with
  | none => exact agreeUntil_refl _ _
  | some permit =>
    exact ((agree_limited (h call s) limit call.method).protect _).andThen fun o s _ => agreeUntil_refl _ _

/-- By induction on the attempts that the counter has room for. -/
theorem agree_balanceFrom (h : AgreeUntilMissing one other) (config : BalancerConfig) (look : Resolver ε)
    (call : Call) (service : String) (room : Nat) : ∀ (state : BalanceState) (s : World ε),
    AgreeUntil Misses (fun _ => True) (balanceFrom config look one call service room state)
      (balanceFrom config look other call service room state) s := by
  induction room with
  | zero =>
    intro state s
    unfold balanceFrom
    exact agreeUntil_refl _ _
  | succ room ih =>
    intro state s
    unfold balanceFrom
    refine agreeUntil_andThen fun chosen s => ?_
    cases chosen with
    | error e => exact .done trivial
    | ok server =>
      refine (h _ s).andThen fun o s _ => ?_
      cases o with
      | ok response => exact .done trivial
      | error e =>
        dsimp only
        split
        · exact .done trivial
        · split
          · exact agreeUntil_andThen fun _ s => ih _ s
          · split
            · exact agreeUntil_andThen fun _ s => ih _ s
            · exact agreeUntil_refl _ _

theorem agree_balancing (h : AgreeUntilMissing one other) (config : BalancerConfig)
    (resolver : Option (Resolver ε)) :
    AgreeUntilMissing (balancing config resolver one) (balancing config resolver other) := by
  intro call s
  unfold balancing
  split
  · exact h call s
  · cases resolver with
    | none => exact .done trivial
    | some look => exact agree_balanceFrom h config look call _ counterMax _ s

theorem agree_attemptsFrom {x y : Stage ε Outcome} (h : ∀ s, AgreeUntil Misses (fun _ => True) x y s)
    (policy : RetryPolicy) (listeners : List Listener) (method : String) (room : Nat) :
    ∀ (attempt : Nat) (s : World ε), AgreeUntil Misses (fun _ => True)
      (attemptsFrom policy listeners x method room attempt) (attemptsFrom policy listeners y method room attempt) s := by
  induction room with
  | zero => exact fun attempt s => .done trivial
  | succ room ih =>
    intro attempt s
    refine (h s).andThen fun o s _ => ?_
    cases o with
    | ok response => exact .done trivial
    | error e =>
      dsimp only
      split
      · exact .done trivial
      · exact agreeUntil_refl _ _
      · exact agreeUntil_andThen fun _ s => agreeUntil_andThen fun _ s => agreeUntil_andThen fun _ s => ih _ s

theorem agree_retrying (h : AgreeUntilMissing one other) (policy : RetryPolicy) (listeners : List Listener) :
    AgreeUntilMissing (retrying policy listeners one) (retrying policy listeners other) :=
  fun call s => agree_attemptsFrom (h call) policy listeners call.method counterMax 1 s

end Agreement

/-! ## What is left to do after the answer -/

/-- What an attempt with `decode404` ends with. -/
abbrev nothingFound : Outcome := .ok (.empty .notFound)

/-- The listeners are told of the answer, in the write right after it. -/
def Announces (listeners : List Listener) (answer told : Write (World ε)) : Prop :=
  ∃ request headers elapsed, AnswersNotFound request answer.before answer.after ∧
    told = ⟨answer.time, answer.after,
      answer.after.note (World.told listeners (.responseReceived request .notFound headers elapsed))⟩

/-- The state after a report. -/
def afterReport (permit : Permit) (verdict : Verdict) (t : Instant) (s : World ε) : World ε :=
  World.note { s with breakers := (s.breakers.report permit t verdict).1 }
    ((s.breakers.report permit t verdict).2.map .logged ++ [.reported permit verdict])

/-- The breaker of a key has admitted a call. -/
def Grants (key : String) (permit : Permit) (w : Write (World ε)) : Prop :=
  permit.key = key ∧ .admitted permit ∈ gained w.before.past w.after.past

/-- What there is around the answer of an attempt, up to the last state. Without a breaker the listeners are told,
and that is all. Behind the breaker of a key the attempt was admitted by it before, and after the listeners were told
its success is recorded. -/
def Closing (listeners : List Listener) : Option String → List (Write (World ε)) → Write (World ε) →
    List (Write (World ε)) → World ε → Prop
  | none, _, answer, after, last => ∃ told, Announces listeners answer told ∧ after = [told] ∧ last = told.after
  | some key, before, answer, after, last => ∃ asked during permit told, before = asked :: during ∧
      Grants key permit asked ∧ (∀ w ∈ during, Spares w) ∧ Announces listeners answer told ∧
      after = [told, ⟨answer.time, told.after, last⟩] ∧ last = afterReport permit .success answer.time told.after

/-- After an answer with a 404 a stage ends at once, as a success. -/
abbrev EndsMissing (listeners : List Listener) (key : Option String) (x : Stage ε Outcome) : Prop :=
  EndsAtOnce (fun w => Misses w.before w.after) nothingFound (Closing listeners key) x

section Attempts

variable {t t' : Instant} {s s' : World ε} {ws : List (Write (World ε))}

theorem goes_note_rests {os : List Occurrence} {f : Unit → Stage ε α} {y : Stage ε α} (hy : y.Rests)
    (h : Goes ((Stage.note os).andThen f) t s ws y t' s') :
    ∃ vs, ws = ⟨t, s, s.note os⟩ :: vs ∧ Goes (f ()) t (s.note os) vs y t' s' := by
  cases h with
  | stay => exact hy.elim
  | look h =>
    cases h with
    | stay => exact hy.elim
    | store h => exact ⟨_, rfl, h⟩

theorem goes_now_rests {f : Instant → Stage ε α} {y : Stage ε α} (hy : y.Rests)
    (h : Goes (Fiber.now.andThen f) t s ws y t' s') : Goes (f t) t s ws y t' s' := by
  cases h with
  | stay => exact hy.elim
  | look h => exact h

/-- The answer, the telling and the end. -/
theorem endsMissing_answer (listeners : List Listener) (request : Request) (headers : Http.Headers)
    (started : Instant) : EndsMissing listeners none
      ((Stage.note [.answered request (.ok .notFound)]).andThen fun _ => Fiber.now.andThen fun ended =>
        (Stage.tell listeners (.responseReceived request .notFound headers (ended - started))).andThen fun _ =>
          (.done nothingFound : Stage ε Outcome)) := by
  intro t s before w after y t' s' hgoes hy hkind
  obtain ⟨vs, hws, hrest⟩ := goes_note_rests hy hgoes
  obtain ⟨vs', rfl, hend⟩ := goes_note_rests hy (goes_now_rests hy hrest)
  cases hend
  cases before with
  | nil =>
    obtain ⟨rfl, rfl⟩ := List.cons.inj hws
    refine ⟨rfl, rfl, [], [], rfl, _, ⟨request, headers, t - started, ?_, rfl⟩, rfl, rfl⟩
    simp [AnswersNotFound, World.note]
  | cons v before =>
    -- the second write is no answer
    have hmem : w ∈ before ++ w :: after := by simp
    rw [show before ++ w :: after = _ from (List.cons.inj hws).2, List.mem_singleton] at hmem
    rw [hmem] at hkind
    exact absurd hkind (not_misses_told _ _)

/-- With `decode404` an attempt ends with its answer, whatever headers and body came with it and whatever the
handler of statuses is. -/
theorem endsMissing_executing {exchange : Exchange ε} (hdecode : exchange.decode404 = true) (call : Call) :
    EndsMissing exchange.listeners none (executing exchange call) := by
  unfold executing
  split
  · exact endsAtOnce_of_never (writes_done _)
  · rename_i request _
    unfold send
    simp only [andThen_assoc]
    refine endsAtOnce_then (neverMisses_tell _ _) fun _ =>
      endsAtOnce_then (neverMisses_note fun _ h => by simp at h) fun _ =>
      endsAtOnce_then writes_now fun started => endsAtOnce_then (neverMisses_outside _) fun answer => ?_
    cases answer with
    | error e =>
      simp only [andThen_assoc, done_andThen]
      exact endsAtOnce_then (neverMisses_note fun _ h => by simp at h) fun _ => endsAtOnce_of_never (writes_done _)
    | ok response =>
      simp only [andThen_assoc, done_andThen]
      by_cases hstatus : response.status = .notFound
      · have hclassify : ∀ request, classify exchange call (response.withRequest request) = .done nothingFound :=
          fun request => if_pos ⟨hdecode, hstatus⟩
        simp only [hclassify, hstatus]
        exact endsMissing_answer _ _ _ _
      · refine endsAtOnce_then (neverMisses_note fun _ h => ?_) fun _ => endsAtOnce_then writes_now fun ended =>
          endsAtOnce_then (neverMisses_tell _ _) fun _ =>
          endsAtOnce_of_never (neverMisses_of_asides (asides_classify _ _ _))
        simp only [List.mem_singleton, Occurrence.answered.injEq, Except.ok.injEq] at h
        exact hstatus h.2.symm

theorem endsMissing_limited {exchange : Exchange ε} (hdecode : exchange.decode404 = true)
    (limit : Option Duration) (call : Call) :
    EndsMissing exchange.listeners none (limited limit call.method (executing exchange call)) := by
  cases limit with
  | none => exact endsMissing_executing hdecode call
  | some d =>
    have hwithin := (endsMissing_executing hdecode call).within (waitOf d) fun _ _ _ _ _ _ _ _ hgoes _ _ =>
      not_misses_of_kept ((dropsKeep_executing (fun _ _ => rfl) exchange call).of_goes hgoes _)
    refine hwithin.andThen rfl fun result => ?_
    cases result with
    | some o => exact endsAtOnce_of_never (writes_done _)
    | none => exact endsAtOnce_of_never (writes_done _)

/-- A report is one write, and nothing is waited for. -/
theorem goes_report {permit : Permit} {verdict : Verdict} {f : Unit → Stage ε α} {y : Stage ε α} (hy : y.Rests)
    (h : Goes ((report permit verdict).andThen f) t s ws y t' s') :
    ∃ vs, ws = ⟨t, s, afterReport permit verdict t s⟩ :: vs ∧
      Goes (f ()) t (afterReport permit verdict t s) vs y t' s' := by
  cases h with
  | stay => exact hy.elim
  | look h =>
    cases h with
    | stay => exact hy.elim
    | store h => exact ⟨_, rfl, h⟩

/-- A request to a breaker is one write, and nothing is waited for. -/
theorem goes_acquire {key : String} {f : Option Permit → Stage ε α} {y : Stage ε α} (hy : y.Rests)
    (h : Goes ((acquire key).andThen f) t s ws y t' s') :
    ∃ asked vs answer, ws = asked :: vs ∧ Ends (acquire key) t s [asked] answer t asked.after ∧
      Goes (f answer) t asked.after vs y t' s' := by
  cases h with
  | stay => exact hy.elim
  | look h =>
    cases h with
    | stay => exact hy.elim
    | store h => exact ⟨_, _, _, rfl, ends_modifyGet.2 ⟨rfl, rfl, rfl, rfl⟩, h⟩

theorem grants_of_acquire {key : String} {asked : Write (World ε)} {permit : Permit}
    (h : Ends (acquire key) t s [asked] (some permit) t' s') : Grants key permit asked := by
  obtain ⟨hws, hanswer, -, -⟩ := ends_modifyGet.1 h
  obtain rfl := List.singleton_injective hws
  refine ⟨?_, ?_⟩
  · obtain ⟨trial, -, rfl⟩ := Option.map_eq_some_iff.1 hanswer.symm
    rfl
  · simp only [World.note, gained_append, List.reverse_reverse]
    refine List.mem_append_right _ (List.mem_singleton.2 ?_)
    rw [← hanswer]

/-- Behind a breaker the attempt is reported as a success of the permit that it was admitted with. -/
theorem endsMissing_guarding {exchange : Exchange ε} (hdecode : exchange.decode404 = true) (key : String)
    (limit : Option Duration) (fallback : Option (Fallback ε)) (call : Call) :
    EndsMissing exchange.listeners (some key) (guarding key limit fallback (executing exchange) call) := by
  intro t s before w after y t' s' hgoes hy hkind
  obtain ⟨asked, vs, answer, hws, hacquire, hrest⟩ := goes_acquire hy hgoes
  have hasked : ¬ Misses asked.before asked.after :=
    neverMisses_of_asides (asides_acquire key) hacquire asked List.mem_cons_self
  cases before with
  | nil =>
    obtain ⟨rfl, -⟩ := List.cons.inj hws
    exact absurd hkind hasked
  | cons first during =>
    obtain ⟨rfl, rfl⟩ := List.cons.inj hws
    cases answer with
    | none =>
      have hnever : NeverMisses ((Stage.log (rejectedLine call key)).andThen fun _ =>
          recover fallback call (.circuitOpen key) : Stage ε Outcome) :=
        neverMisses_of_asides (obeys_andThen (asides_log _) fun _ => asides_recover _ _ _)
      exact absurd hkind (hnever.of_goes hrest w (by simp))
    | some permit =>
      have hattempt := (endsMissing_limited hdecode limit call).protect (release permit)
      -- the answer comes in the attempt, and not in what is concluded from it
      rcases goes_andThen_rests _ hy hrest with ⟨wait, drop, rest, hwaits⟩ |
        ⟨us, o, t₁, s₁, vs, hsplit, hends, hconclude⟩
      · exact absurd hkind (hattempt.not_of_waits hwaits w (by simp))
      · rcases split_of_append hsplit with ⟨after', rfl, rfl⟩ | ⟨before', -, rfl⟩
        · obtain ⟨ho, rfl, -, -, -, told, hannounces, rfl, rfl⟩ := hattempt hends trivial hkind
          cases ho
          obtain ⟨vs', rfl, hend⟩ := goes_report hy hconclude
          cases hend
          have hspares := spares_limited limit call.method exchange call ((ends_protect _ _).1 hends)
          exact ⟨rfl, rfl, [], first :: during, rfl, first, during, permit, told, rfl, grants_of_acquire hacquire,
            fun v hv => hspares v (List.mem_append_left _ hv), hannounces, rfl, rfl⟩
        · have hnever : NeverMisses (conclude fallback call permit o) :=
            neverMisses_of_asides (asides_conclude _ _ _ _)
          exact absurd hkind (hnever.of_goes hconclude w (by simp))

end Attempts

/-! ## Through balancing and retries -/

section Layers

variable {listeners : List Listener} {key : Option String}

theorem endsMissing_of_asides {x : Stage ε Outcome} (h : Obeys Asides x) : EndsMissing listeners key x :=
  endsAtOnce_of_never (neverMisses_of_asides h)

/-- By induction on the attempts that the counter has room for: a success is no reason for another one. -/
theorem endsMissing_balanceFrom {inner : Service ε} (h : ∀ call, EndsMissing listeners key (inner call))
    (config : BalancerConfig) (look : Resolver ε) (call : Call) (service : String) (room : Nat) :
    ∀ state, EndsMissing listeners key (balanceFrom config look inner call service room state) := by
  induction room with
  | zero =>
    intro state
    unfold balanceFrom
    refine endsAtOnce_then (neverMisses_of_asides (asides_choose _ _ _)) fun chosen => ?_
    cases chosen with
    | error e => exact endsMissing_of_asides (obeys_done _)
    | ok server => exact endsMissing_of_asides (obeys_done _)
  | succ room ih =>
    intro state
    unfold balanceFrom
    refine endsAtOnce_then (neverMisses_of_asides (asides_choose _ _ _)) fun chosen => ?_
    cases chosen with
    | error e => exact endsMissing_of_asides (obeys_done _)
    | ok server =>
      refine (h _).andThen rfl fun o => ?_
      cases o with
      | ok response => exact endsMissing_of_asides (obeys_done _)
      | error e =>
        dsimp only
        split
        · exact endsMissing_of_asides (obeys_done _)
        · split
          · exact endsAtOnce_then (neverMisses_of_asides (asides_log _)) fun _ => ih _
          · split
            · exact endsAtOnce_then (neverMisses_of_asides (asides_log _)) fun _ => ih _
            · exact endsMissing_of_asides (obeys_andThen (asides_log _) fun _ => obeys_done _)

theorem endsMissing_balancing {inner : Service ε} (h : ∀ call, EndsMissing listeners key (inner call))
    (config : BalancerConfig) (resolver : Option (Resolver ε)) (call : Call) :
    EndsMissing listeners key (balancing config resolver inner call) := by
  unfold balancing
  split
  · exact h call
  · cases resolver with
    | none => exact endsMissing_of_asides (obeys_done _)
    | some look => exact endsMissing_balanceFrom h config look call _ counterMax _

theorem endsMissing_attemptsFrom {x : Stage ε Outcome} (h : EndsMissing listeners key x) (policy : RetryPolicy)
    (others : List Listener) (method : String) (room : Nat) :
    ∀ attempt, EndsMissing listeners key (attemptsFrom policy others x method room attempt) := by
  induction room with
  | zero => exact fun attempt => endsMissing_of_asides (obeys_done _)
  | succ room ih =>
    intro attempt
    refine h.andThen rfl fun o => ?_
    cases o with
    | ok response => exact endsMissing_of_asides (obeys_done _)
    | error e =>
      dsimp only
      split
      · exact endsMissing_of_asides (obeys_done _)
      · exact endsMissing_of_asides (obeys_andThen (asides_log _) fun _ => obeys_done _)
      · exact endsAtOnce_then (neverMisses_of_asides (asides_log _)) fun _ =>
          endsAtOnce_then (neverMisses_tell _ _) fun _ => endsAtOnce_then (writes_sleep _) fun _ => ih _

theorem endsMissing_retrying {inner : Service ε} (h : ∀ call, EndsMissing listeners key (inner call))
    (policy : RetryPolicy) (others : List Listener) (call : Call) :
    EndsMissing listeners key (retrying policy others inner call) :=
  endsMissing_attemptsFrom (h call) policy others call.method counterMax 1

end Layers

end ResilientClient.Pipeline
