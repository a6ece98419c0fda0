/-
The rounds of a call that is retried. Each round is one use of the service inside; between one that failed
and the next the listeners are told of the retry, and nothing is done for the delay (`interval`). Every path
of a call that is retried is a journey of such rounds, which ends with the first response or final failure,
or when as many retries were made as the configuration allows (`rounds_of_retrying`).
-/
import ResilientClient.Pipeline.Retry
import ResilientClient.Proofs.Pipeline.Faults
import ResilientClient.Proofs.Pipeline.Journey

open ResilientClient.Fiber

namespace ResilientClient.Pipeline

variable {ε : Type}

/-! ## Rounds -/

/-- A round that failed in a way that is retried. -/
structure Round (c : RetryConfig) (inside : Course) where
  legs : List Leg
  error : Error
  taken : inside legs (.error error)
  retried : ¬ c.Final error

section Legs

variable {c : RetryConfig} {inside : Course}

/-- What is done between the failure of a round and the next round. -/
def interval (c : RetryConfig) (draw : Nat → Binary64) (listeners : List Listener) (method : String)
    (number : Nat) (e : Error) : List Leg :=
  let delay := c.delayAfter draw number e
  [.log (retryLine method number e delay), .tell listeners (.retrying method number e delay), .rest delay]

/-- Failed rounds, each with the interval behind it; they are numbered from one on. -/
def roundsLegs (draw : Nat → Binary64) (listeners : List Listener) (method : String)
    (failed : List (Round c inside)) : List Leg :=
  (failed.zipIdx 1).flatMap fun p => p.1.legs ++ interval c draw listeners method p.2 p.1.error

theorem roundsLegs_append (draw : Nat → Binary64) (listeners : List Listener) (method : String)
    (failed : List (Round c inside)) (round : Round c inside) :
    roundsLegs draw listeners method (failed ++ [round]) = roundsLegs draw listeners method failed ++
      (round.legs ++ interval c draw listeners method (failed.length + 1) round.error) := by
  simp [roundsLegs, List.zipIdx_append, Nat.add_comm]

end Legs

/-! ## Courses of retried calls -/

/-- The courses of a call that is retried, as long as the counter has room for its attempts. -/
inductive Retries (c : RetryConfig) (draw : Nat → Binary64) (listeners : List Listener) (method : String)
    (inside : Course) : Course
  /-- The outcome of a round is final. -/
  | settled {failed : List (Round c inside)} {legs : List Leg} {o : Outcome} :
      failed.length ≤ c.maxRetries → inside legs o → c.Settles o →
      Retries c draw listeners method inside (roundsLegs draw listeners method failed ++ legs) o
  /-- The retries are used up. -/
  | exhausted {failed : List (Round c inside)} {legs : List Leg} {e : Error} :
      failed.length = c.maxRetries → inside legs (.error e) → ¬ c.Final e →
      Retries c draw listeners method inside
        (roundsLegs draw listeners method failed ++
          (legs ++ [.log (exhaustedLine method (c.maxRetries + 1) e)]))
        (.error (.exhausted (c.maxRetries + 1) e))
  | full {failed : List (Round c inside)} : failed.length ≤ c.maxRetries → failed.length = counterMax →
      Retries c draw listeners method inside (roundsLegs draw listeners method failed)
        (.error .attemptOverflow)

/-! ## Every path is such a journey -/

section Paths

variable {c : RetryConfig} {inside : Course} {resolver : Option (Resolver ε)} {inner : Service ε}
  {work : Stage ε Outcome} {t t' : Instant} {s s' : World ε} {ws : List (Write (World ε))} {r : Outcome}

/-- By induction on the attempts that the counter has room for: each failure that is retried is one more
failed round. -/
theorem attemptsFrom_retries (hwork : Takes resolver inner work inside) (draw : Nat → Binary64)
    (listeners : List Listener) (method : String) (room : Nat) :
    ∀ (failed : List (Round c inside)) {t : Instant} {s : World ε} {ws : List (Write (World ε))},
      failed.length ≤ c.maxRetries → room + failed.length = counterMax →
      Ends (attemptsFrom (c.policy draw) listeners work method room (failed.length + 1)) t s ws r t' s' →
      ∃ legs, Journey resolver inner legs t s ws t' s' ∧
        Retries c draw listeners method inside (roundsLegs draw listeners method failed ++ legs) r := by
  induction room with
  | zero =>
    intro failed t s ws hleft hroom h
    obtain ⟨rfl, rfl, rfl, rfl⟩ := ends_done.1 h
    refine ⟨[], .nil, ?_⟩
    rw [List.append_nil]
    exact .full hleft (by omega)
  | succ room ih =>
    intro failed t s ws hleft hroom h
    obtain ⟨us, o, t₁, s₁, vs, rfl, hround, hrest⟩ := (ends_andThen _ _).1 h
    obtain ⟨legs, hjourney, hinside⟩ := hwork _ _ _ _ _ _ hround
    cases o with
    | ok response =>
      obtain ⟨rfl, rfl, rfl, rfl⟩ := ends_done.1 hrest
      rw [List.append_nil]
      exact ⟨legs, hjourney, .settled hleft hinside fun e he => by cases he⟩
    | error e =>
      dsimp only at hrest
      rcases c.policy_cases draw e (failed.length + 1) with ⟨hfinal, hpolicy⟩ |
        ⟨hfinal, hspent, hpolicy⟩ | ⟨hfinal, hmore, hpolicy⟩
      · rw [hpolicy] at hrest
        obtain ⟨rfl, rfl, rfl, rfl⟩ := ends_done.1 hrest
        rw [List.append_nil]
        exact ⟨legs, hjourney, .settled hleft hinside fun e' he' => by cases he'; exact hfinal⟩
      · rw [hpolicy] at hrest
        have hall : failed.length = c.maxRetries := by omega
        obtain ⟨us', _, t₂, s₂, vs', rfl, hnote, hend⟩ := (ends_andThen _ _).1 hrest
        obtain ⟨rfl, rfl, rfl, rfl⟩ := ends_done.1 hend
        rw [hall] at hnote ⊢
        exact ⟨_, hjourney.append (.log hnote .nil), .exhausted hall hinside hfinal⟩
      · rw [hpolicy] at hrest
        obtain ⟨us₁, _, t₂, s₂, vs₁, rfl, hlog, hrest⟩ := (ends_andThen _ _).1 hrest
        obtain ⟨us₂, _, t₃, s₃, vs₂, rfl, htell, hrest⟩ := (ends_andThen _ _).1 hrest
        obtain ⟨us₃, _, t₄, s₄, vs₃, rfl, hsleep, hrest⟩ := (ends_andThen _ _).1 hrest
        -- the round joins the failed ones
        let round : Round c inside := ⟨legs, e, hinside, hfinal⟩
        obtain ⟨more, hjourney', hcourse⟩ := ih (failed ++ [round])
          (by simpa using hmore) (by simp; omega) (by simpa using hrest)
        refine ⟨_, hjourney.append (.log hlog (.tell htell (.rest hsleep hjourney'))), ?_⟩
        rw [roundsLegs_append] at hcourse
        simpa [round, interval] using hcourse

/-- If the service inside goes on a course, then a call that is retried goes on the courses of its rounds. -/
theorem retrying_takes (c : RetryConfig) (draw : Nat → Binary64) (listeners : List Listener) (call : Call)
    (layer : Service ε) (hlayer : Takes resolver inner (layer call) inside) :
    Takes resolver inner (retrying (c.policy draw) listeners layer call)
      (Retries c draw listeners call.method inside) := fun _ _ _ _ _ _ h =>
  attemptsFrom_retries hlayer draw listeners call.method counterMax [] (Nat.zero_le _) rfl h

end Paths

/-! ## Rounds of a course -/

section Rounds

variable {c : RetryConfig} {draw : Nat → Binary64} {listeners : List Listener} {method : String}
  {inside : Course} {legs : List Leg} {r : Outcome} {call : Call} {o : Outcome}

/-- There is a round. -/
theorem Retries.exists_round (h : Retries c draw listeners method inside legs r) :
    ∃ part r', inside part r' ∧ part ⊆ legs := by
  cases h with
  | settled _ hpart => exact ⟨_, _, hpart, List.subset_append_right _ _⟩
  | exhausted _ hpart =>
    exact ⟨_, _, hpart, fun leg hleg => List.mem_append_right _ (List.mem_append_left _ hleg)⟩
  | @full failed _ hfull =>
    cases failed with
    | nil => cases hfull
    | cons round failed =>
      refine ⟨round.legs, _, round.taken, fun leg hleg => ?_⟩
      simp [roundsLegs, hleg]

/-- An attempt is part of a round. -/
theorem Retries.round_of_attempt (h : Retries c draw listeners method inside legs r)
    (hmem : .attempt call o ∈ legs) : ∃ part r', inside part r' ∧ part ⊆ legs ∧ .attempt call o ∈ part := by
  have hfailed : ∀ failed : List (Round c inside), roundsLegs draw listeners method failed ⊆ legs →
      .attempt call o ∈ roundsLegs draw listeners method failed →
      ∃ part r', inside part r' ∧ part ⊆ legs ∧ .attempt call o ∈ part := by
    intro failed hsub hmem
    obtain ⟨p, hp, hmem⟩ := List.mem_flatMap.1 hmem
    refine ⟨p.1.legs, _, p.1.taken, fun leg hleg => ?_, by simpa [interval] using hmem⟩
    exact hsub (List.mem_flatMap.2 ⟨p, hp, List.mem_append_left _ hleg⟩)
  cases h with
  | @settled failed _ _ _ hpart =>
    rcases List.mem_append.1 hmem with hmem | hmem
    · exact hfailed failed (List.subset_append_left _ _) hmem
    · exact ⟨_, _, hpart, List.subset_append_right _ _, hmem⟩
  | @exhausted failed _ _ _ hpart =>
    rcases List.mem_append.1 hmem with hmem | hmem
    · exact hfailed failed (List.subset_append_left _ _) hmem
    · refine ⟨_, _, hpart, fun leg hleg => List.mem_append_right _ (List.mem_append_left _ hleg), ?_⟩
      simpa using hmem
  | @full failed => exact hfailed failed (List.Subset.refl _) hmem

end Rounds

/-! ## Failures that are not retried -/

/-- If the service inside ends with its final failures, so does a call that is retried. -/
theorem Retries.endsAt {c : RetryConfig} {draw : Nat → Binary64} {listeners : List Listener}
    {method : String} {inside : Course} {legs : List Leg} {r : Outcome}
    (hinside : ∀ legs r, inside legs r → EndsAt c.Final legs r)
    (h : Retries c draw listeners method inside legs r) : EndsAt c.Final legs r := by
  have hrounds : ∀ failed : List (Round c inside),
      Free c.Final (roundsLegs draw listeners method failed) := by
    intro failed
    refine free_flatMap.2 fun p _ => ?_
    have hfree : Free c.Final p.1.legs := (hinside _ _ p.1.taken).free p.1.retried
    simp [hfree, interval]
  cases h with
  | settled _ hlegs => exact (hrounds _).endsAt_append (hinside _ _ hlegs)
  | exhausted _ hlegs hfinal =>
    have hfree := (hinside _ _ hlegs).free hfinal
    exact Free.endsAt (by simp [hrounds, hfree])
  | full => exact (hrounds _).endsAt

/-! ## Outcomes of the attempts -/

section Outcomes

variable {c : RetryConfig} {draw : Nat → Binary64} {listeners : List Listener} {method : String} {call : Call}
  {legs : List Leg} {r : Outcome} {outcomes : Nat → Outcome}

theorem outcomesOf_roundsLegs (failed : List (Round c (once call))) :
    outcomesOf (roundsLegs draw listeners method failed) = failed.map fun round => .error round.error := by
  induction failed using List.reverseRecOn with
  | nil => rfl
  | append_singleton failed round ih =>
    have hone : round.legs = [.attempt call (.error round.error)] := round.taken
    rw [roundsLegs_append, hone]
    simp [ih, interval]

/-- The attempts of a call that is retried: failures that are retried, and the outcome at which it ends. -/
theorem Retries.outcomes_cases (hbudget : c.maxRetries < counterMax)
    (h : Retries c draw listeners method (once call) legs r) :
    ∃ (failed : List Error) (last : Outcome), outcomesOf legs = failed.map .error ++ [last] ∧
      (∀ e ∈ failed, ¬ c.Final e) ∧
      (failed.length ≤ c.maxRetries ∧ c.Settles last ∧ r = last ∨
       failed.length = c.maxRetries ∧ ∃ e, last = .error e ∧ ¬ c.Final e ∧
         r = .error (.exhausted (c.maxRetries + 1) e)) := by
  have hretried : ∀ failed : List (Round c (once call)), ∀ e ∈ failed.map Round.error, ¬ c.Final e := by
    intro failed e hmem
    obtain ⟨round, -, rfl⟩ := List.mem_map.1 hmem
    exact round.retried
  cases h with
  | @settled failed legs _ hleft hlegs hsettles =>
    cases hlegs
    exact ⟨failed.map Round.error, r, by simp [outcomesOf_roundsLegs], hretried failed,
      .inl ⟨by simpa using hleft, hsettles, rfl⟩⟩
  | @exhausted failed legs e hall hlegs hfinal =>
    cases hlegs
    exact ⟨failed.map Round.error, .error e, by simp [outcomesOf_roundsLegs], hretried failed,
      .inr ⟨by simpa using hall, e, rfl, hfinal, rfl⟩⟩
  | full hleft hfull => omega

/-- The attempts on a journey end as a sequence says, which is numbered from one on. -/
def Follows (legs : List Leg) (outcomes : Nat → Outcome) : Prop :=
  ∀ i o, (outcomesOf legs)[i]? = some o → o = outcomes (i + 1)

/-- With which attempt a call ends if its attempts end as a sequence says, and with what: with the first
one that is not retried, or with the last one that the configuration allows. -/
inductive EndsWith (c : RetryConfig) (outcomes : Nat → Outcome) : Nat → Outcome → Prop
  | settled {k : Nat} : 1 ≤ k → k ≤ c.maxRetries + 1 →
      (∀ i, 1 ≤ i → i < k → ¬ c.Settles (outcomes i)) → c.Settles (outcomes k) →
      EndsWith c outcomes k (outcomes k)
  | exhausted {e : Error} : (∀ i, 1 ≤ i → i ≤ c.maxRetries + 1 → ¬ c.Settles (outcomes i)) →
      outcomes (c.maxRetries + 1) = .error e →
      EndsWith c outcomes (c.maxRetries + 1) (.error (.exhausted (c.maxRetries + 1) e))

/-- A sequence says all about the end. -/
theorem EndsWith.unique {k k' : Nat} {r' : Outcome} (h : EndsWith c outcomes k r)
    (h' : EndsWith c outcomes k' r') : k = k' ∧ r = r' := by
  cases h with
  | settled hpos hle hbefore hsettles =>
    cases h' with
    | settled hpos' hle' hbefore' hsettles' =>
      rcases Nat.lt_trichotomy k k' with hlt | rfl | hlt
      · exact absurd hsettles (hbefore' k hpos hlt)
      · exact ⟨rfl, rfl⟩
      · exact absurd hsettles' (hbefore k' hpos' hlt)
    | exhausted hall => exact absurd hsettles (hall k hpos hle)
  | exhausted hall hlast =>
    cases h' with
    | settled hpos' hle' hbefore' hsettles' => exact absurd hsettles' (hall k' hpos' hle')
    | exhausted hall' hlast' =>
      cases hlast.symm.trans hlast'
      exact ⟨rfl, rfl⟩

theorem not_settles_error {e : Error} (he : ¬ c.Final e) : ¬ c.Settles (.error e) :=
  fun hsettles => he (hsettles e rfl)

theorem Retries.endsWith (hbudget : c.maxRetries < counterMax)
    (h : Retries c draw listeners method (once call) legs r) (hfollows : Follows legs outcomes) :
    EndsWith c outcomes (attempts legs) r := by
  obtain ⟨failed, last, houtcomes, hretried, hend⟩ := h.outcomes_cases hbudget
  have hcount : attempts legs = failed.length + 1 := by simp [attempts, houtcomes]
  have hlast : last = outcomes (failed.length + 1) := hfollows _ _ (by simp [houtcomes])
  have hbefore : ∀ i, 1 ≤ i → i < failed.length + 1 → ¬ c.Settles (outcomes i) := by
    intro i hpos hlt
    obtain ⟨i, rfl⟩ := Nat.exists_eq_succ_of_ne_zero (Nat.ne_of_gt hpos)
    have hi : i < failed.length := by omega
    have hentry : (outcomesOf legs)[i]? = some (.error failed[i]) := by
      rw [houtcomes, List.getElem?_append_left (by simpa using hi)]
      simp [hi]
    rw [← hfollows i _ hentry]
    exact not_settles_error (hretried _ (List.getElem_mem hi))
  rw [hcount]
  -- the last outcome is one that settles, or the budget is used up
  rcases hend with ⟨hleft, hsettles, rfl⟩ | ⟨hall, e, rfl, hfinal, rfl⟩
  · rw [hlast] at hsettles ⊢
    exact .settled (by omega) (by omega) hbefore hsettles
  · rw [hall] at hlast hbefore ⊢
    refine .exhausted (fun i hpos hle => ?_) hlast.symm
    rcases Nat.lt_or_eq_of_le hle with hlt | rfl
    · exact hbefore i hpos hlt
    · rw [← hlast]
      exact not_settles_error hfinal

end Outcomes

/-- A call that is retried ends, and it is a journey of attempts, with an interval after each one that is
followed by another. Whatever sequence of outcomes they follow, the last one is the first that is not retried,
and its outcome is that of the call, unchanged; or it is the last one that the configuration allows, and the
call ends with its failure and the number of attempts. In particular, a success after no more failures than
the configuration retries is the outcome. -/
theorem rounds_of_retrying (c : RetryConfig) (draw : Nat → Binary64) (listeners : List Listener)
    (inner : Service ε) (call : Call) (hbudget : c.maxRetries < counterMax) :
    (∀ t s, ∃ ws r t' s', Ends (retrying (c.policy draw) listeners inner call) t s ws r t' s') ∧
    ∀ t s ws r t' s', Ends (retrying (c.policy draw) listeners inner call) t s ws r t' s' →
      ∃ legs, Journey none inner legs t s ws t' s' ∧
        Retries c draw listeners call.method (once call) legs r ∧
        ∀ outcomes, Follows legs outcomes →
          EndsWith c outcomes (attempts legs) r ∧
          ∀ failures response, failures ≤ c.maxRetries →
            (∀ i, 1 ≤ i → i ≤ failures → ¬ c.Settles (outcomes i)) →
            outcomes (failures + 1) = .ok response →
            attempts legs = failures + 1 ∧ r = .ok response := by
  constructor
  · intro t s
    obtain ⟨ws, hends⟩ := ends_run (retrying (c.policy draw) listeners inner call) t s
    exact ⟨ws, _, _, _, hends⟩
  · intro t s ws r t' s' hends
    obtain ⟨legs, hjourney, hcourse⟩ := retrying_takes c draw listeners call inner
      (takes_once none inner call) t s ws r t' s' hends
    refine ⟨legs, hjourney, hcourse, fun outcomes hfollows => ?_⟩
    have hend := hcourse.endsWith hbudget hfollows
    refine ⟨hend, fun failures response hle hfailures hsuccess => ?_⟩
    have hsettles : c.Settles (outcomes (failures + 1)) := by
      intro e he
      rw [hsuccess] at he
      cases he
    have hother : EndsWith c outcomes (failures + 1) (outcomes (failures + 1)) :=
      .settled (by omega) (by omega) (fun i hpos hlt => hfailures i hpos (by omega)) hsettles
    rw [hsuccess] at hother
    exact hend.unique hother

/-! ## A service that recovers -/

namespace Recovering

/-- Two retries, after one second each. -/
def config : RetryConfig := ⟨2, .fixed (.ofSeconds 1), false⟩

/-- The first two calls are not answered in time; the state counts the calls. -/
def inner : Service Nat := fun _ =>
  .modifyGet fun _ w =>
    (if w.outside.own < 2 then .error (.timeout (.ofSeconds 1)) else .ok (.empty .ok),
      { w with outside := { w.outside with own := w.outside.own + 1 } })

def call : Call :=
  ⟨⟨"Api#get()", "GET", .compile "/", [], [], [], none, none, none, .single⟩, [], .url "http://a", none⟩

/-- A world without breakers in which nothing has happened. -/
def world : World Nat := ⟨⟨[], 0⟩, .empty .default, []⟩

/-- The work of a call of which the listeners are told. -/
def work : Stage Nat Outcome :=
  retrying (config.policy fun _ => .ofNat 0) [.recorder "events"] inner call

/-- What the first two attempts end with. -/
def late : Error := .timeout (.ofSeconds 1)

theorem late_of_attempt {t t' : Instant} {s s' : World Nat} {ws : List (Write (World Nat))} {o : Outcome}
    (h : Ends (inner call) t s ws o t' s') : t' = t ∧ ∀ e, o = .error e → e = late := by
  obtain ⟨-, rfl, rfl, -⟩ := ends_modifyGet.1 h
  refine ⟨rfl, fun e he => ?_⟩
  dsimp only at he
  split at he
  · exact (Except.error.inj he).symm
  · cases he

section Clock

variable {draw : Nat → Binary64} {listeners : List Listener} {method : String} {legs : List Leg}
  {t' : Instant} {s s' : World Nat} {ws : List (Write (World Nat))}

/-- Each failed round takes one second. -/
theorem after_rounds (failed : List (Round config (once call))) :
    ∀ {more : List Leg}, Journey none inner (roundsLegs draw listeners method failed ++ more) 0 s ws t' s' →
      (∀ round ∈ failed, round.error = late) ∧
      ∃ s₁ vs, Journey none inner more (failed.length * 1000000000) s₁ vs t' s' := by
  induction failed using List.reverseRecOn with
  | nil => exact fun h => ⟨fun _ hmem => absurd hmem List.not_mem_nil, s, ws, h⟩
  | append_singleton failed round ih =>
    intro more h
    have hone : round.legs = [.attempt call (.error round.error)] := round.taken
    rw [roundsLegs_append, hone, List.append_assoc] at h
    obtain ⟨hfailed, s₁, vs, h⟩ := ih h
    cases h with
    | cons hattempt h =>
    cases h with
    | cons hlog h =>
    cases h with
    | cons htell h =>
    cases h with
    | @cons _ _ _ t₁ _ _ s₁ _ _ vs₁ hrest h =>
      obtain ⟨rfl, hlate⟩ := late_of_attempt hattempt
      obtain ⟨rfl, -, -⟩ := ends_note hlog
      obtain ⟨rfl, -, -⟩ := ends_note htell
      have herror := hlate _ rfl
      have hdelay : config.delayAfter draw (failed.length + 1) late = .ofSeconds 1 := rfl
      have hsecond : waitOf (.ofSeconds 1) = 1000000000 := by decide +kernel
      have htime := time_of_sleep hrest
      rw [herror, hdelay, hsecond] at htime
      refine ⟨?_, s₁, vs₁, ?_⟩
      · intro round' hmem
        rcases List.mem_append.1 hmem with hmem | hmem
        · exact hfailed round' hmem
        · rw [List.mem_singleton.1 hmem]
          exact herror
      · rw [List.length_append, List.length_singleton, Nat.add_mul, ← htime]
        exact h

theorem outcomes_of_recovering {response : Response}
    (hcourse : Retries config draw listeners method (once call) legs (.ok response))
    (h : Journey none inner legs 0 s ws 2000000000 s') :
    outcomesOf legs = [.error late, .error late, .ok response] := by
  cases hcourse with
  | @settled failed _ _ _ hlegs =>
    cases hlegs
    obtain ⟨hlate, s₁, vs, h⟩ := after_rounds failed h
    cases h with
    | cons hattempt h =>
    cases h
    have hcount : failed.length = 2 := by
      have htime : 2000000000 = failed.length * 1000000000 := (late_of_attempt hattempt).1
      omega
    have hfailed : failed.map (fun round => (.error round.error : Outcome)) =
        List.replicate 2 (.error late) := by
      rw [List.eq_replicate_iff]
      refine ⟨by simpa using hcount, fun o hmem => ?_⟩
      obtain ⟨round, hround, rfl⟩ := List.mem_map.1 hmem
      rw [hlate round hround]
    rw [outcomesOf_append, outcomesOf_roundsLegs, hfailed]
    rfl

end Clock

/-- The third attempt is still within the budget; it ends two seconds after the first one, and the listener was told
of both retries. -/
theorem rounds_of_recovering :
    ∃ ws s' legs, Ends work 0 world ws (.ok (.empty .ok)) 2000000000 s' ∧
      Journey none inner legs 0 world ws 2000000000 s' ∧
      Retries config (fun _ => .ofNat 0) [.recorder "events"] call.method (once call) legs
        (.ok (.empty .ok)) ∧
      Follows legs (fun i => if i ≤ 2 then .error late else .ok (.empty .ok)) ∧ attempts legs = 3 ∧
      s'.events = [("events", .retrying call.method 1 late (.ofSeconds 1)),
        ("events", .retrying call.method 2 late (.ofSeconds 1))] := by
  have hrun : (work.run 0 world).1 = .ok (.empty .ok) ∧ (work.run 0 world).2.1 = 2000000000 := by
    decide +kernel
  have hheard : (work.run 0 world).2.2.events = [("events", .retrying call.method 1 late (.ofSeconds 1)),
      ("events", .retrying call.method 2 late (.ofSeconds 1))] := by decide +kernel
  obtain ⟨ws, hends⟩ := ends_run work 0 world
  rw [hrun.1, hrun.2] at hends
  obtain ⟨legs, hjourney, hcourse, hall⟩ :=
    (rounds_of_retrying config (fun _ => .ofNat 0) [.recorder "events"] inner call (by decide)).2
      _ _ _ _ _ _ hends
  have hfollows : Follows legs (fun i => if i ≤ 2 then .error late else .ok (.empty .ok)) := by
    intro i o hentry
    rw [outcomes_of_recovering hcourse hjourney] at hentry
    rcases i with _ | _ | _ | i
    · exact (Option.some.inj hentry).symm
    · exact (Option.some.inj hentry).symm
    · exact (Option.some.inj hentry).symm
    · cases hentry
  have hretried : ¬ config.Final late := by
    rintro (h | h | h | ⟨-, h⟩)
    · cases h
    · cases h
    · cases h
    · cases h
  obtain ⟨hattempts, -⟩ := (hall _ hfollows).2 2 (.empty .ok) (by decide)
    (fun i _ hle => by rw [if_pos hle]; exact not_settles_error hretried) rfl
  exact ⟨ws, _, legs, hends, hjourney, hcourse, hfollows, hattempts, hheard⟩

end Recovering

end ResilientClient.Pipeline
