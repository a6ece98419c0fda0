/-
The stays of a call that is balanced. A call to a service stays with one instance at a time: the instance is
looked up, and attempts go there until one of them ends the call or moves it to another instance. Every path
of a balanced call is a journey of such stays, and the budgets bound how many they are and how many attempts
each of them makes (`stays_of_balancing`).
-/
import ResilientClient.Proofs.Pipeline.Faults
import ResilientClient.Proofs.Pipeline.Journey

open ResilientClient.Fiber

namespace ResilientClient.Pipeline

variable {ε : Type}

/-! ## Stays -/

/-- An instance, and the failures after which it was tried again: none of them was one to connect, and they
are within the budget. -/
structure Visit (config : BalancerConfig) where
  server : Server
  again : List Error
  within : again.length ≤ config.retriesOnSame
  kept : ∀ e ∈ again, e.IsExchangeFault ∧ ¬ e.IsConnectFailure

/-- A visit with the failure at its end, after which the instance is given up: it could not be reached, or
the budget for trying it again is used up. -/
structure Stay (config : BalancerConfig) extends Visit config where
  last : Error
  fault : last.IsExchangeFault
  givenUp : last.IsConnectFailure ∨ again.length = config.retriesOnSame

section Legs

variable {config : BalancerConfig} {call : Call} {service : String}

/-- Attempts at an instance, each of which fails so that it is tried again. -/
def triedAgain (call : Call) (service : String) (server : Server) (again : List Error) : List Leg :=
  again.flatMap fun e =>
    [.attempt (call.toServer server) (.error e), .log (sameInstanceLine call service server e)]

namespace Visit

/-- A visit that begins. -/
def begin (config : BalancerConfig) (server : Server) : Visit config :=
  ⟨server, [], Nat.zero_le _, fun _ h => absurd h List.not_mem_nil⟩

/-- A visit on which the instance is tried once more. -/
def more (visit : Visit config) (e : Error) (hleft : visit.again.length < config.retriesOnSame)
    (he : e.IsExchangeFault ∧ ¬ e.IsConnectFailure) : Visit config where
  server := visit.server
  again := visit.again ++ [e]
  within := by simpa using hleft
  kept := by
    intro e' hmem
    rcases List.mem_append.1 hmem with hmem | hmem
    · exact visit.kept e' hmem
    · obtain rfl := List.mem_singleton.1 hmem
      exact he

def legs (call : Call) (service : String) (visit : Visit config) : List Leg :=
  .lookup service (.ok visit.server) :: triedAgain call service visit.server visit.again

theorem legs_begin (server : Server) :
    (begin config server).legs call service = [.lookup service (.ok server)] := by
  simp [legs, begin, triedAgain]

theorem legs_more (visit : Visit config) {e : Error} (hleft : visit.again.length < config.retriesOnSame)
    (he : e.IsExchangeFault ∧ ¬ e.IsConnectFailure) :
    (visit.more e hleft he).legs call service = visit.legs call service ++
      [.attempt (call.toServer visit.server) (.error e),
        .log (sameInstanceLine call service visit.server e)] := by
  simp [legs, more, triedAgain]

@[simp] theorem attempts_legs (visit : Visit config) :
    attempts (visit.legs call service) = visit.again.length := by
  unfold legs triedAgain
  induction visit.again with
  | nil => simp
  | cons e again ih => simp_all

end Visit

namespace Stay

def legs (call : Call) (service : String) (stay : Stay config) : List Leg :=
  stay.toVisit.legs call service ++
    [.attempt (call.toServer stay.server) (.error stay.last),
      .log (nextInstanceLine call service stay.server stay.last)]

@[simp] theorem attempts_legs (stay : Stay config) :
    attempts (stay.legs call service) = stay.again.length + 1 := by
  simp [legs]

end Stay

end Legs

/-! ## Courses of balanced calls -/

/-- How a balanced call ends after the stays from which it has moved on. -/
inductive Concludes (config : BalancerConfig) (call : Call) (service : String) (left : List (Stay config)) :
    Course
  /-- No instance is found. -/
  | unresolved {e : Error} : Concludes config call service left [.lookup service (.error e)] (.error e)
  /-- The outcome of an attempt is final. -/
  | settled {visit : Visit config} {o : Outcome} : (∀ e, o = .error e → ¬ e.IsExchangeFault) →
      Concludes config call service left
        (visit.legs call service ++ [.attempt (call.toServer visit.server) o]) o
  /-- The budgets are used up. -/
  | exhausted {stay : Stay config} {total : Nat} : left.length = config.retriesOnNext →
      total = attempts (left.flatMap (Stay.legs call service)) + stay.again.length + 1 →
      Concludes config call service left
        (stay.toVisit.legs call service ++
          [.attempt (call.toServer stay.server) (.error stay.last),
            .log (balancerExhaustedLine call service total)])
        (.error (.exhausted total stay.last))

/-- The courses of a balanced call: one attempt for a URL, and stays at the instances of a service, as long
as the counter has room for their attempts. -/
inductive Balances (config : BalancerConfig) (call : Call) : Course
  | direct {base : String} {o : Outcome} : call.target = .url base →
      Balances config call [.attempt call o] o
  | stayed {service : String} {left : List (Stay config)} {last : List Leg} {r : Outcome} :
      call.target = .service service → left.length ≤ config.retriesOnNext →
      Concludes config call service left last r →
      Balances config call (left.flatMap (Stay.legs call service) ++ last) r
  | full {service : String} {left : List (Stay config)} {visit : Visit config} :
      call.target = .service service → left.length ≤ config.retriesOnNext →
      attempts (left.flatMap (Stay.legs call service)) + visit.again.length = counterMax →
      Balances config call
        (left.flatMap (Stay.legs call service) ++ visit.legs call service) (.error .attemptOverflow)

/-! ## Every path is such a journey -/

section Paths

variable {config : BalancerConfig} {call : Call} {service : String} {resolver : Resolver ε}
  {inner : Service ε} {left : List (Stay config)} {t t' : Instant} {s s' : World ε}
  {ws : List (Write (World ε))} {r : Outcome}

/-- Without an instance one is looked up, and the attempts go there. -/
theorem balanceFrom_none (config : BalancerConfig) (resolver : Resolver ε) (inner : Service ε)
    (call : Call) (service : String) (room attempts same next : Nat) :
    balanceFrom config resolver inner call service room ⟨attempts, same, next, none⟩ =
      (choose resolver service none).andThen fun
        | .error e => .done (.error e)
        | .ok server =>
          balanceFrom config resolver inner call service room ⟨attempts, same, next, some server⟩ := by
  conv_lhs => unfold balanceFrom
  congr 1
  funext outcome
  cases outcome with
  | error e => rfl
  | ok server =>
    conv_rhs => unfold balanceFrom choose
    rfl

/-- What is done after an attempt on a visit, when `count` attempts were made before and `next` instances
given up. -/
inductive AfterAttempt (config : BalancerConfig) (resolver : Resolver ε) (inner : Service ε) (call : Call)
    (service : String) (room count next : Nat) : Visit config → Outcome → Stage ε Outcome → Prop
  /-- The outcome is final. -/
  | settled {visit : Visit config} {o : Outcome} : (∀ e, o = .error e → ¬ e.IsExchangeFault) →
      AfterAttempt config resolver inner call service room count next visit o (.done o)
  /-- The instance is tried again. -/
  | again {visit : Visit config} {e : Error} (hleft : visit.again.length < config.retriesOnSame)
      (he : e.IsExchangeFault ∧ ¬ e.IsConnectFailure) :
      AfterAttempt config resolver inner call service room count next visit (.error e)
        ((Stage.log (sameInstanceLine call service visit.server e)).andThen fun _ =>
          balanceFrom config resolver inner call service room
            ⟨count + 1, (visit.more e hleft he).again.length, next, some visit.server⟩)
  /-- Another instance is tried. -/
  | moves (stay : Stay config) : next < config.retriesOnNext →
      AfterAttempt config resolver inner call service room count next stay.toVisit (.error stay.last)
        ((Stage.log (nextInstanceLine call service stay.server stay.last)).andThen fun _ =>
          balanceFrom config resolver inner call service room ⟨count + 1, 0, next + 1, none⟩)
  /-- The budgets are used up. -/
  | exhausted (stay : Stay config) : config.retriesOnNext ≤ next →
      AfterAttempt config resolver inner call service room count next stay.toVisit (.error stay.last)
        ((Stage.log (balancerExhaustedLine call service (count + 1))).andThen fun _ =>
          .done (.error (.exhausted (count + 1) stay.last)))

/-- On a visit an attempt is made, and what follows is up to its outcome. -/
theorem balanceFrom_visit (config : BalancerConfig) (resolver : Resolver ε) (inner : Service ε)
    (call : Call) (service : String) (room count next : Nat) (visit : Visit config) :
    ∃ rest, balanceFrom config resolver inner call service (room + 1)
        ⟨count, visit.again.length, next, some visit.server⟩ =
          (inner (call.toServer visit.server)).andThen rest ∧
      ∀ o, AfterAttempt config resolver inner call service room count next visit o (rest o) := by
  conv in balanceFrom .. => unfold balanceFrom choose
  refine ⟨_, rfl, fun o => ?_⟩
  cases o with
  | ok response => exact .settled fun e he => by cases he
  | error e =>
    dsimp only
    split
    · rename_i hstop
      refine .settled fun e' he' => ?_
      cases he'
      exact (Failover.of_eq_stop_iff e).1 hstop
    · rename_i hgoes
      have hfault : e.IsExchangeFault := by
        by_contra hnone
        exact hgoes ((Failover.of_eq_stop_iff e).2 hnone)
      split
      · rename_i hagain
        have hstep : AfterAttempt config resolver inner call service room count next visit (.error e) _ :=
          .again hagain.2 ((Failover.of_eq_sameInstance_iff e).1 hagain.1)
        simpa [Visit.more] using hstep
      · rename_i hno
        have hgivenUp : e.IsConnectFailure ∨ visit.again.length = config.retriesOnSame := by
          by_contra hother
          rw [not_or] at hother
          refine hno ⟨(Failover.of_eq_sameInstance_iff e).2 ⟨hfault, hother.1⟩, ?_⟩
          exact Nat.lt_of_le_of_ne visit.within hother.2
        split
        · rename_i hnext
          exact .moves ⟨visit, e, hfault, hgivenUp⟩ hnext
        · rename_i hlast
          exact .exhausted ⟨visit, e, hfault, hgivenUp⟩ (Nat.not_lt.1 hlast)

/-- A call that has moved on goes on with a lookup, and then with a visit if it finds an instance. -/
theorem lookup_balances (left : List (Stay config)) (htarget : call.target = .service service)
    (hleft : left.length ≤ config.retriesOnNext) {room count same next : Nat}
    (hvisit : ∀ server t s ws, Ends (balanceFrom config resolver inner call service room
        ⟨count, same, next, some server⟩) t s ws r t' s' →
      ∃ legs, Journey (some resolver) inner legs t s ws t' s' ∧
        Balances config call (left.flatMap (Stay.legs call service) ++
          (Visit.begin config server).legs call service ++ legs) r ∧ attempts legs ≤ room)
    (h : Ends (balanceFrom config resolver inner call service room ⟨count, same, next, none⟩)
      t s ws r t' s') :
    ∃ legs, Journey (some resolver) inner legs t s ws t' s' ∧
      Balances config call (left.flatMap (Stay.legs call service) ++ legs) r ∧ attempts legs ≤ room := by
  rw [balanceFrom_none] at h
  obtain ⟨us, outcome, t₁, s₁, vs, rfl, hlookup, hrest⟩ := (ends_andThen _ _).1 h
  cases outcome with
  | error e =>
    obtain ⟨rfl, rfl, rfl, rfl⟩ := ends_done.1 hrest
    exact ⟨[.lookup service (.error e)], .lookup hlookup .nil, .stayed htarget hleft .unresolved,
      Nat.zero_le _⟩
  | ok server =>
    obtain ⟨legs, hjourney, hcourse, hroom⟩ := hvisit server _ _ _ hrest
    refine ⟨.lookup service (.ok server) :: legs, .lookup hlookup hjourney, ?_, hroom⟩
    rwa [Visit.legs_begin, List.append_assoc] at hcourse

/-- A visit goes on as its course says, and with no more attempts than the counter has room for. By induction on
that room: the failure of an attempt makes the visit longer, or it ends it, and then the next one begins. -/
theorem visit_balances (htarget : call.target = .service service) (room : Nat) :
    ∀ {left : List (Stay config)} (visit : Visit config) {t : Instant} {s : World ε}
      {ws : List (Write (World ε))},
      left.length ≤ config.retriesOnNext →
      room + (attempts (left.flatMap (Stay.legs call service)) + visit.again.length) = counterMax →
      Ends (balanceFrom config resolver inner call service room
        ⟨attempts (left.flatMap (Stay.legs call service)) + visit.again.length, visit.again.length,
          left.length, some visit.server⟩) t s ws r t' s' →
      ∃ legs, Journey (some resolver) inner legs t s ws t' s' ∧
        Balances config call (left.flatMap (Stay.legs call service) ++ visit.legs call service ++ legs) r ∧
        attempts legs ≤ room := by
  induction room with
  | zero =>
    intro left visit t s ws hleft hroom h
    unfold balanceFrom at h
    obtain ⟨rfl, rfl, rfl, rfl⟩ := ends_done.1 h
    refine ⟨[], .nil, ?_, Nat.le_refl _⟩
    rw [List.append_nil]
    exact .full htarget hleft (by omega)
  | succ room ih =>
    intro left visit t s ws hleft hroom h
    obtain ⟨rest, hrest, hafter⟩ := balanceFrom_visit config resolver inner call service room
      (attempts (left.flatMap (Stay.legs call service)) + visit.again.length) left.length visit
    rw [hrest] at h
    obtain ⟨us, o, t₁, s₁, vs, rfl, hattempt, hrest⟩ := (ends_andThen _ _).1 h
    specialize hafter o
    generalize rest o = after at hafter hrest
    cases hafter with
    | settled hfinal =>
      obtain ⟨rfl, rfl, rfl, rfl⟩ := ends_done.1 hrest
      refine ⟨_, .attempt hattempt .nil, ?_, by simp⟩
      rw [List.append_assoc]
      exact .stayed htarget hleft (.settled hfinal)
    | again hmore he =>
      -- the visit becomes longer by this failure
      obtain ⟨us', _, t₂, s₂, vs', rfl, hnote, hrest⟩ := (ends_andThen _ _).1 hrest
      obtain ⟨legs, hjourney, hcourse, hle⟩ := ih (visit.more _ hmore he) hleft
        (by simp [Visit.more]; omega) (by simpa [Visit.more, Nat.add_assoc] using hrest)
      refine ⟨_, .attempt hattempt (.log hnote hjourney), ?_, by simpa using hle⟩
      rw [Visit.legs_more] at hcourse
      simpa using hcourse
    | moves stay hnext =>
      -- the visit becomes a stay that is over, and another one begins
      obtain ⟨us', _, t₂, s₂, vs', rfl, hnote, hrest⟩ := (ends_andThen _ _).1 hrest
      have hcount : attempts ((left ++ [stay]).flatMap (Stay.legs call service)) =
          attempts (left.flatMap (Stay.legs call service)) + stay.again.length + 1 := by
        simp [Nat.add_assoc]
      have hleft' : (left ++ [stay]).length ≤ config.retriesOnNext := by simpa using hnext
      obtain ⟨legs, hjourney, hcourse, hle⟩ := lookup_balances _ htarget hleft' (fun server t s ws hends =>
        ih (Visit.begin config server) hleft' (by rw [hcount]; simp [Visit.begin]; omega)
          (by rw [hcount]; simpa [Visit.begin] using hends)) hrest
      refine ⟨_, .attempt hattempt (.log hnote hjourney), ?_, by simpa using hle⟩
      simpa [Stay.legs] using hcourse
    | exhausted stay hnone =>
      obtain ⟨us', _, t₂, s₂, vs', rfl, hnote, hend⟩ := (ends_andThen _ _).1 hrest
      obtain ⟨rfl, rfl, rfl, rfl⟩ := ends_done.1 hend
      refine ⟨_, .attempt hattempt (.log hnote .nil), ?_, by simp⟩
      rw [List.append_assoc]
      exact .stayed htarget hleft (.exhausted (Nat.le_antisymm hleft hnone) rfl)

/-- Whatever happens, a balanced call goes on one of its courses, and its attempts can be counted. -/
theorem balancing_takes_counted (config : BalancerConfig) (resolver : Resolver ε) (inner : Service ε)
    (call : Call) :
    Takes (some resolver) inner (balancing config (some resolver) inner call)
      (fun legs r => Balances config call legs r ∧ attempts legs ≤ counterMax) := by
  intro t s ws r t' s' h
  unfold balancing at h
  cases htarget : call.target with
  | url base =>
    rw [htarget] at h
    obtain ⟨legs, hjourney, rfl⟩ := takes_once (some resolver) inner call t s ws r t' s' h
    exact ⟨_, hjourney, .direct htarget, by rw [attempts_attempt, attempts_nil]; decide⟩
  | service service =>
    rw [htarget] at h
    refine lookup_balances [] htarget (Nat.zero_le _) ?_ h
    intro server t s ws hends
    exact visit_balances htarget counterMax (Visit.begin config server) (Nat.zero_le _) rfl hends

theorem balancing_takes (config : BalancerConfig) (resolver : Resolver ε) (inner : Service ε)
    (call : Call) :
    Takes (some resolver) inner (balancing config (some resolver) inner call) (Balances config call) := by
  intro t s ws r t' s' h
  obtain ⟨legs, hjourney, hcourse, -⟩ := balancing_takes_counted config resolver inner call t s ws r t' s' h
  exact ⟨legs, hjourney, hcourse⟩

end Paths

/-! ## Budgets -/

section Budgets

variable {config : BalancerConfig} {call : Call} {service : String} {left : List (Stay config)}

theorem attempts_left_le (call : Call) (service : String) (left : List (Stay config)) :
    attempts (left.flatMap (Stay.legs call service)) ≤ (1 + config.retriesOnSame) * left.length := by
  induction left with
  | nil => simp
  | cons stay left ih =>
    have hwithin := stay.within
    rw [List.flatMap_cons, attempts_append, Stay.attempts_legs, List.length_cons, Nat.mul_succ]
    omega

/-- An instance that could be reached is given up only when it has been tried as often as possible. -/
theorem Stay.again_of_reached (stay : Stay config) (h : ¬ stay.last.IsConnectFailure) :
    stay.again.length = config.retriesOnSame :=
  stay.givenUp.resolve_left h

theorem attempts_left_of_reached (left : List (Stay config))
    (h : ∀ stay ∈ left, ¬ stay.last.IsConnectFailure) :
    attempts (left.flatMap (Stay.legs call service)) = (1 + config.retriesOnSame) * left.length := by
  induction left with
  | nil => simp
  | cons stay left ih =>
    rw [List.forall_mem_cons] at h
    rw [List.flatMap_cons, attempts_append, Stay.attempts_legs, stay.again_of_reached h.1, ih h.2,
      List.length_cons, Nat.mul_succ]
    omega

theorem Visit.attempts_lt (visit : Visit config) (call : Call) (service : String) :
    attempts (visit.legs call service) < 1 + config.retriesOnSame := by
  have hwithin := visit.within
  rw [Visit.attempts_legs]
  omega

theorem Concludes.attempts_le {last : List Leg} {r : Outcome}
    (h : Concludes config call service left last r) : attempts last ≤ 1 + config.retriesOnSame := by
  cases h with
  | unresolved => simp
  | @settled visit =>
    have hlt := visit.attempts_lt call service
    simpa using hlt
  | @exhausted stay =>
    have hlt := stay.toVisit.attempts_lt call service
    simpa using hlt

/-- What the stays and the rest of a call need. -/
theorem attempts_stays_le (call : Call) (service : String) (hleft : left.length ≤ config.retriesOnNext) {most : Nat}
    (hmost : most ≤ 1 + config.retriesOnSame) :
    attempts (left.flatMap (Stay.legs call service)) + most ≤
      (1 + config.retriesOnSame) * (1 + config.retriesOnNext) := by
  have hstays := attempts_left_le call service left
  have hall := Nat.mul_le_mul_left (1 + config.retriesOnSame) hleft
  rw [Nat.mul_add, Nat.mul_one]
  omega

/-- The budgets are used up before the counter is. -/
theorem Visit.not_full (visit : Visit config) (call : Call) (service : String)
    (hleft : left.length ≤ config.retriesOnNext)
    (hbudget : (1 + config.retriesOnSame) * (1 + config.retriesOnNext) < twoTo 32) :
    attempts (left.flatMap (Stay.legs call service)) + visit.again.length ≠ counterMax := by
  have hle := attempts_stays_le call service hleft (visit.attempts_lt call service)
  rw [Visit.attempts_legs] at hle
  unfold counterMax
  omega

/-- The attempts that the budgets allow for a call to a target. -/
def mostAttempts (config : BalancerConfig) (target : Target) : Nat :=
  if target.isLogical then (1 + config.retriesOnSame) * (1 + config.retriesOnNext) else 1

theorem mostAttempts_pos (config : BalancerConfig) (target : Target) : 0 < mostAttempts config target := by
  unfold mostAttempts
  split
  · exact Nat.mul_pos (by omega) (by omega)
  · exact Nat.one_pos

theorem Balances.attempts_le {legs : List Leg} {r : Outcome} (h : Balances config call legs r) :
    attempts legs ≤ mostAttempts config call.target := by
  unfold mostAttempts
  cases h with
  | direct htarget => simp [htarget, Target.isLogical]
  | stayed htarget hleft hconcludes =>
    rw [htarget, attempts_append]
    exact attempts_stays_le call _ hleft hconcludes.attempts_le
  | @full service left visit htarget hleft =>
    rw [htarget, attempts_append]
    exact attempts_stays_le call _ hleft (Nat.le_of_lt (visit.attempts_lt call service))

end Budgets

/-! ## Instances of the attempts -/

section Instances

variable {config : BalancerConfig} {call : Call} {service : String} {left : List (Stay config)}
  {legs more last : List Leg} {r : Outcome}

/-- Each attempt goes to an instance that was looked up. -/
def Placed (call : Call) (service : String) (legs : List Leg) : Prop :=
  ∀ call' o, .attempt call' o ∈ legs →
    ∃ server, .lookup service (.ok server) ∈ legs ∧ call' = call.toServer server

/-- Each attempt goes to the instance that was looked up last. -/
def Seated (call : Call) (service : String) (legs : List Leg) : Prop :=
  ∀ before call' o after, legs = before ++ .attempt call' o :: after →
    ∃ server front back, before = front ++ .lookup service (.ok server) :: back ∧
      (∀ service' found, .lookup service' found ∉ back) ∧ call' = call.toServer server

theorem seated_of_no_attempt (h : ∀ call' o, .attempt call' o ∉ legs) : Seated call service legs := by
  rintro before call' o after rfl
  exact absurd (by simp) (h call' o)

theorem Seated.append (h : Seated call service legs) (h' : Seated call service more) :
    Seated call service (legs ++ more) := by
  intro before call' o after hlegs
  rcases List.append_eq_append_iff.1 hlegs with ⟨mid, rfl, hmore⟩ | ⟨mid, hsplit, hmid⟩
  · obtain ⟨server, front, back, rfl, hback, hcall⟩ := h' mid call' o after hmore
    exact ⟨server, legs ++ front, back, by simp, hback, hcall⟩
  · cases mid with
    | nil =>
      obtain ⟨server, front, back, hfront, -, -⟩ := h' [] call' o after hmid.symm
      simp at hfront
    | cons leg mid =>
      obtain ⟨rfl, -⟩ := List.cons.inj hmid
      exact h before call' o mid hsplit

/-- Attempts at an instance behind its lookup. -/
theorem seated_of_lookup {server : Server} (hattempts : ∀ call' o, .attempt call' o ∈ more → call' = call.toServer server)
    (hlookups : ∀ service' found, .lookup service' found ∉ more) :
    Seated call service (.lookup service (.ok server) :: more) := by
  intro before call' o after hlegs
  cases before with
  | nil => cases (List.cons.inj hlegs).1
  | cons leg before =>
    obtain ⟨rfl, rfl⟩ := List.cons.inj hlegs
    refine ⟨server, [], before, rfl, fun service' found hmem => ?_, hattempts call' o (by simp)⟩
    exact hlookups service' found (List.mem_append_left _ hmem)

/-- A visit, and attempts at its instance behind it. -/
theorem Visit.seated (visit : Visit config)
    (hattempts : ∀ call' o, .attempt call' o ∈ more → call' = call.toServer visit.server)
    (hlookups : ∀ service' found, .lookup service' found ∉ more) :
    Seated call service (visit.legs call service ++ more) := by
  refine seated_of_lookup (fun call' o hmem => ?_) fun service' found hmem => ?_
  · rcases List.mem_append.1 hmem with hagain | hmem
    · simp only [triedAgain, List.mem_flatMap, List.mem_cons, Leg.attempt.injEq, reduceCtorEq, List.not_mem_nil,
        or_false] at hagain
      obtain ⟨e, -, hcall, -⟩ := hagain
      exact hcall
    · exact hattempts call' o hmem
  · rcases List.mem_append.1 hmem with hagain | hmem
    · simp [triedAgain] at hagain
    · exact hlookups service' found hmem

theorem seated_stays (left : List (Stay config)) :
    Seated call service (left.flatMap (Stay.legs call service)) := by
  induction left with
  | nil => exact seated_of_no_attempt (by simp)
  | cons stay left ih => exact (stay.toVisit.seated (by simp) (by simp)).append ih

theorem Concludes.seated (h : Concludes config call service left last r) : Seated call service last := by
  cases h with
  | unresolved => exact seated_of_no_attempt (by simp)
  | @settled visit => exact visit.seated (by simp) (by simp)
  | @exhausted stay => exact stay.toVisit.seated (by simp) (by simp)

theorem Balances.seated (h : Balances config call legs r) (htarget : call.target = .service service) :
    Seated call service legs := by
  cases h with
  | direct hurl => cases htarget.symm.trans hurl
  | stayed hservice _ hconcludes =>
    cases htarget.symm.trans hservice
    exact (seated_stays _).append hconcludes.seated
  | @full _ left visit hservice =>
    cases htarget.symm.trans hservice
    have hvisit : Seated call service (visit.legs call service ++ []) := visit.seated (by simp) (by simp)
    rw [List.append_nil] at hvisit
    exact (seated_stays left).append hvisit

theorem Balances.placed (h : Balances config call legs r) (htarget : call.target = .service service) :
    Placed call service legs := by
  intro call' o hmem
  obtain ⟨before, after, rfl⟩ := List.append_of_mem hmem
  obtain ⟨server, front, back, rfl, -, hcall⟩ := h.seated htarget before call' o after rfl
  exact ⟨server, by simp, hcall⟩

/-- If every instance is found, there is an attempt. -/
theorem Balances.attempts_pos (h : Balances config call legs r)
    (hfound : ∀ service o, .lookup service o ∈ legs → ∃ server, o = .ok server) : 0 < attempts legs := by
  cases h with
  | direct => simp
  | @stayed service left last _ _ _ hconcludes =>
    cases hconcludes with
    | @unresolved e =>
      obtain ⟨server, hserver⟩ := hfound service (.error e) (by simp)
      cases hserver
    | settled => simp
    | exhausted => simp
  | full _ _ hfull =>
    rw [attempts_append, Visit.attempts_legs, hfull]
    decide

end Instances

/-! ## Failures at which a balancer stops -/

section Final

variable {config : BalancerConfig} {call : Call} {service : String} {left : List (Stay config)}
  {legs last : List Leg} {r : Outcome} {F : Error → Prop}

/-- On a visit, attempts are followed by others only after faults of an exchange. -/
theorem Visit.free (hF : ∀ e, F e → ¬ e.IsExchangeFault) (visit : Visit config) :
    Free F (visit.legs call service) := by
  simp only [Visit.legs, triedAgain, free_lookup, free_log, free_flatMap, free_attempt, free_nil, and_true]
  exact fun e hagain hfinal => hF e hfinal (visit.kept e hagain).1

theorem Stay.not_final (hF : ∀ e, F e → ¬ e.IsExchangeFault) (stay : Stay config) : ¬ F stay.last :=
  fun hfinal => hF _ hfinal stay.fault

theorem free_stays (hF : ∀ e, F e → ¬ e.IsExchangeFault) (left : List (Stay config)) :
    Free F (left.flatMap (Stay.legs call service)) :=
  free_flatMap.2 fun stay _ => by simp [Stay.legs, stay.free hF, stay.not_final hF]

theorem Concludes.endsAt (hF : ∀ e, F e → ¬ e.IsExchangeFault)
    (h : Concludes config call service left last r) : EndsAt F last r := by
  cases h with
  | unresolved => exact Free.endsAt (by simp)
  | @settled visit => exact (visit.free hF).endsAt_append (endsAt_attempt _ _)
  | @exhausted stay => exact Free.endsAt (by simp [stay.free hF, stay.not_final hF])

/-- A balancer stops at every failure that is no fault of an exchange, and returns it. -/
theorem Balances.endsAt (hF : ∀ e, F e → ¬ e.IsExchangeFault) (h : Balances config call legs r) :
    EndsAt F legs r := by
  cases h with
  | direct => exact endsAt_attempt _ _
  | stayed _ _ hconcludes => exact (free_stays hF _).endsAt_append (hconcludes.endsAt hF)
  | @full _ left visit => exact Free.endsAt (free_append.2 ⟨free_stays hF left, visit.free hF⟩)

end Final

/-- A call to a service ends, and it is a journey of stays. Each stay begins with the one lookup of its
instance and makes no more than `1 + retriesOnSame` attempts, all of them there, and it is left only when
the instance could not be reached or this budget is used up. The call ends with the outcome of the last
attempt if that is a response or a failure that is no fault of an exchange, or with the failure to find an
instance; or it ends with its last failure and the number of all attempts, after as many failovers as the
configuration allows and when the last instance would have been given up as well. -/
theorem stays_of_balancing (config : BalancerConfig) (resolver : Resolver ε) (inner : Service ε)
    (call : Call) {service : String} (htarget : call.target = .service service)
    (hbudget : (1 + config.retriesOnSame) * (1 + config.retriesOnNext) < twoTo 32) :
    (∀ t s, ∃ ws r t' s', Ends (balancing config (some resolver) inner call) t s ws r t' s') ∧
    ∀ t s ws r t' s', Ends (balancing config (some resolver) inner call) t s ws r t' s' →
      ∃ (left : List (Stay config)) (last : List Leg),
        Journey (some resolver) inner (left.flatMap (Stay.legs call service) ++ last) t s ws t' s' ∧
        left.length ≤ config.retriesOnNext ∧ Concludes config call service left last r := by
  constructor
  · intro t s
    obtain ⟨ws, hends⟩ := ends_run (balancing config (some resolver) inner call) t s
    exact ⟨ws, _, _, _, hends⟩
  · intro t s ws r t' s' hends
    obtain ⟨legs, hjourney, hcourse⟩ := balancing_takes config resolver inner call t s ws r t' s' hends
    cases hcourse with
    | direct hurl => cases htarget.symm.trans hurl
    | stayed hservice hleft hconcludes =>
      cases htarget.symm.trans hservice
      exact ⟨_, _, hjourney, hleft, hconcludes⟩
    | @full _ _ visit hservice hleft hfull => exact absurd hfull (visit.not_full call _ hleft hbudget)

/-! ## Two instances -/

namespace TwoInstances

def first : Server := ⟨"a", 80, false, []⟩

def second : Server := ⟨"b", 80, false, []⟩

/-- The instances take turns; the state counts the lookups. -/
def resolver : Resolver Nat := fun _ =>
  .modifyGet fun _ o =>
    (.ok (if o.own % 2 = 0 then first else second), { o with own := o.own + 1 })

/-- The first instance cannot be reached, and the second one does not answer in time. -/
def inner : Service Nat := fun call =>
  .done (.error (if call.server = some first then .transport .connect "refused"
    else .timeout (.ofSeconds 1)))

def call : Call :=
  ⟨⟨"Api#get()", "GET", .compile "/", [], [], [], none, none, none, .single⟩, [], .service "api", none⟩

/-- A world without breakers in which nothing has happened. -/
def world : World Nat := ⟨⟨[], 0⟩, .empty .default, []⟩

/-- The first instance is left at once, and the second one is tried again before the call ends after three
attempts. -/
theorem stays_of_two_instances :
    ∃ ws t' s' last, Ends (balancing ⟨1, 1⟩ (some resolver) inner call) 0 world ws
        (.error (.outOfRetries 3 (.timeout (.ofSeconds 1)))) t' s' ∧
      ∃ left : List (Stay ⟨1, 1⟩), left.length ≤ 1 ∧
        Journey (some resolver) inner (left.flatMap (Stay.legs call "api") ++ last) 0 world ws t' s' ∧
        Concludes ⟨1, 1⟩ call "api" left last (.error (.outOfRetries 3 (.timeout (.ofSeconds 1)))) := by
  have hresult : ((balancing ⟨1, 1⟩ (some resolver) inner call).run 0 world).1 =
      .error (.outOfRetries 3 (.timeout (.ofSeconds 1))) := by decide +kernel
  obtain ⟨ws, hends⟩ := ends_run (balancing ⟨1, 1⟩ (some resolver) inner call) 0 world
  rw [hresult] at hends
  have htarget : call.target = .service "api" := rfl
  obtain ⟨left, last, hjourney, hleft, hconcludes⟩ :=
    (stays_of_balancing ⟨1, 1⟩ resolver inner call htarget (by decide)).2 _ _ _ _ _ _ hends
  exact ⟨ws, _, _, last, hends, left, hleft, hjourney, hconcludes⟩

end TwoInstances

end ResilientClient.Pipeline
