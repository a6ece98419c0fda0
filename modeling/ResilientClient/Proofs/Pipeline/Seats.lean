/-
Seats. A task that calls a service sits with one instance at a time, the one that it has looked up last. Here a
resolver that takes turns is one of the collaborators of clients, and a rule says what a task may do in its seat: it
sends requests that are prepared for this instance only, and after it has given the instance up the very next thing
that it does is to look up another one. Every layer of a pipeline abides by the rule, whatever it is configured to
do (`Desk.moves_balancing`, `Desk.layering_moves`).
-/
import ResilientClient.Proofs.Pipeline.Noting
import ResilientClient.Resolver.RoundRobin

open ResilientClient.Fiber ResilientClient.Pipeline

namespace ResilientClient

variable {ε α β : Type}

/-! ## A shared resolver -/

/-- Where the collaborators of clients keep the resolver that they share. -/
structure Desk (ε : Type) where
  get : ε → RoundRobin
  put : RoundRobin → ε → ε
  get_put : ∀ r own, get (put r own) = r

namespace Desk

/-- The shared resolver, as a collaborator. -/
def resolver (desk : Desk ε) : Resolver ε := fun service =>
  .modifyGet fun _ o =>
    let (answer, r) := (desk.get o.own).resolve service
    (answer, { o with own := desk.put r o.own })

/-- The resolver in a world. -/
def rotation (desk : Desk ε) (w : World ε) : RoundRobin := desk.get w.outside.own

/-- The resolver is left as it is. -/
def Spares (desk : Desk ε) (o o' : Outside ε) : Prop := desk.get o'.own = desk.get o.own

theorem spares_refl (desk : Desk ε) (o : Outside ε) : desk.Spares o o := rfl

end Desk

/-! ## Quiet steps -/

/-- The message of the log line of a failover. -/
def failoverMessage : String := "Failing over to next instance"

/-- Neither a lookup nor a request, nor a failover. -/
def Occurrence.Quiet : Occurrence → Prop
  | .resolved .. | .sent _ => False
  | .logged line => line.message ≠ failoverMessage
  | _ => True

theorem Occurrence.quiet_logged {line : TraceLine} (h : (line.message == failoverMessage) = false) :
    (Occurrence.logged line).Quiet := by simpa [Quiet] using h

theorem BreakerNotice.quiet_line (key : String) (notice : BreakerNotice) :
    (Occurrence.logged (notice.line key)).Quiet := by
  cases notice <;> exact Occurrence.quiet_logged rfl

theorem Listener.quiet_lines (level : LogLevel) (event : Event) :
    ∀ line ∈ linesOf level event, (Occurrence.logged line).Quiet := by
  intro line hline
  unfold linesOf at hline
  split at hline
  · cases hline
  · cases event with
    | bodyElement method element =>
      dsimp only at hline
      split at hline
      · obtain rfl := List.mem_singleton.1 hline
        exact Occurrence.quiet_logged rfl
      · cases hline
    | requestStarted | responseReceived | errorReceived | retrying =>
      obtain rfl := List.mem_singleton.1 hline
      exact Occurrence.quiet_logged rfl

/-- What the report of a call has to tell are notices of its breaker. -/
theorem BreakerRegistry.report_lines (r : BreakerRegistry) (permit : Permit) (t : Instant) (verdict : Verdict) :
    ∃ notices : List BreakerNotice, (r.report permit t verdict).2 = notices.map (BreakerNotice.line permit.key) := by
  unfold report
  split
  · exact ⟨[], rfl⟩
  · exact ⟨_, rfl⟩

theorem World.quiet_told (listeners : List Listener) (event : Event) :
    ∀ o ∈ World.told listeners event, o.Quiet := by
  intro o ho
  obtain ⟨listener, -, ho⟩ := List.mem_flatMap.1 ho
  cases listener with
  | recorder name =>
    obtain rfl := List.mem_singleton.1 ho
    trivial
  | silent => cases ho
  | logger level =>
    obtain ⟨line, hline, rfl⟩ := List.mem_map.1 ho
    exact Listener.quiet_lines level event line hline

namespace Desk

/-- Some occurrences are noted, and the resolver is left as it is. -/
structure Adds (desk : Desk ε) (os : List Occurrence) (s s' : World ε) : Prop where
  rotation : desk.rotation s' = desk.rotation s
  past : s'.past = os.reverse ++ s.past

/-- Only quiet occurrences are noted. -/
def Quiet (desk : Desk ε) (s s' : World ε) : Prop := ∃ os, (∀ o ∈ os, o.Quiet) ∧ desk.Adds os s s'

section QuietStages

variable {desk : Desk ε}

theorem noting_quiet : Noting Occurrence.Quiet desk.Spares desk.Quiet where
  note _ os hos := ⟨os, hos, rfl, rfl⟩
  work _ _ hspares := ⟨[], fun _ h => absurd h List.not_mem_nil, hspares, rfl⟩

theorem quiet_log {line : TraceLine} (h : (line.message == failoverMessage) = false) :
    Obeys desk.Quiet (Stage.log line : Stage ε Unit) := noting_quiet.one (Occurrence.quiet_logged h)

theorem quiet_notices {key : String} {notices : List BreakerNotice} {o o' : Occurrence} (ho' : o'.Quiet)
    (ho : o ∈ (notices.map (BreakerNotice.line key)).map .logged ++ [o']) : o.Quiet := by
  rcases List.mem_append.1 ho with ho | ho
  · obtain ⟨line, hline, rfl⟩ := List.mem_map.1 ho
    obtain ⟨notice, -, rfl⟩ := List.mem_map.1 hline
    exact notice.quiet_line key
  · obtain rfl := List.mem_singleton.1 ho
    exact ho'

theorem quiet_acquire (key : String) : Obeys desk.Quiet (acquire key : Stage ε (Option Permit)) := by
  refine obeys_modifyGet fun t s => ⟨_, fun o ho => quiet_notices ?_ ho, rfl, rfl⟩
  split <;> trivial

theorem quiet_report (permit : Permit) (verdict : Verdict) :
    Obeys desk.Quiet (report permit verdict : Stage ε Unit) := by
  refine obeys_modifyGet fun t s =>
    ⟨(s.breakers.report permit t verdict).2.map .logged ++ [.reported permit verdict], fun o ho => ?_, rfl, rfl⟩
  obtain ⟨notices, hnotices⟩ := s.breakers.report_lines permit t verdict
  rw [hnotices] at ho
  have hreported : (Occurrence.reported permit verdict).Quiet := trivial
  exact quiet_notices hreported ho

theorem quiet_recover {fallback : Option (Fallback ε)}
    (h : ∀ f, fallback = some f → ∀ method args cause, Obeys desk.Spares (f method args cause)) (call : Call)
    (cause : Error) : Obeys desk.Quiet (recover fallback call cause) :=
  noting_quiet.recover h (Occurrence.quiet_logged rfl) trivial

end QuietStages

end Desk

/-! ## The rule -/

/-- Where a task is with its instance. -/
inductive Phase where
  /-- It sits with the instance of a service, if with any. -/
  | seated (seat : Option (String × Server))
  /-- It has given its instance of the service up. -/
  | moving (service : String)
  /-- It has looked an instance of the service up. -/
  | found (service : String) (answer : Except Error Server)

/-- An instance of the service may be looked up now. -/
def Phase.Looks (service : String) : Phase → Prop
  | .seated _ => True
  | .moving service' => service' = service
  | .found .. => False

/-- The call goes to the instance that the seat is with, unless its target is a URL. -/
def SentFrom (call : Call) (seat : Option (String × Server)) : Prop :=
  ∀ service, call.target = .service service → ∃ server, call.server = some server ∧ seat = some (service, server)

namespace Desk

/-- What an attempt may do in a seat: its request is prepared for the instance of the seat. -/
inductive Attends (desk : Desk ε) (kind : List Interceptor → Prop) (seat : Option (String × Server))
    (s s' : World ε) : Prop
  | quiet : desk.Quiet s s' → Attends desk kind seat s s'
  | sends {interceptors : List Interceptor} {call : Call} {request : Request} : kind interceptors →
      prepare interceptors call = .ok request → SentFrom call seat → desk.Adds [.sent request] s s' →
      Attends desk kind seat s s'

/-- What a task may do in its phase. -/
inductive Sits (desk : Desk ε) (kind : List Interceptor → Prop) : Phase → World ε → World ε → Phase → Prop
  | attends {seat : Option (String × Server)} {s s' : World ε} :
      desk.Attends kind seat s s' → Sits desk kind (.seated seat) s s' (.seated seat)
  | leaves {service : String} {server : Server} {s s' : World ε} {call : Call} {e : Error} :
      desk.Adds [.logged (nextInstanceLine call service server e)] s s' →
      Sits desk kind (.seated (some (service, server))) s s' (.moving service)
  | looks {phase : Phase} {service : String} {s s' : World ε} : phase.Looks service →
      desk.rotation s' = ((desk.rotation s).resolve service).2 → s'.past = s.past →
      Sits desk kind phase s s' (.found service ((desk.rotation s).resolve service).1)
  | finds {service : String} {answer : Except Error Server} {s s' : World ε} :
      desk.Adds [.resolved service answer] s s' →
      Sits desk kind (.found service answer) s s' (.seated (answer.toOption.map (service, ·)))

/-- A task waits in its seat only. -/
def rule (desk : Desk ε) (kind : List Interceptor → Prop) : Rule (World ε) Phase :=
  ⟨desk.Sits kind, fun phase => ∃ seat, phase = .seated seat⟩

/-- The service attends to a call in every seat that the call may be sent from. -/
def Attending (desk : Desk ε) (kind : List Interceptor → Prop) (service : Service ε) : Prop :=
  ∀ call seat, SentFrom call seat → Obeys (desk.Attends kind seat) (service call)

/-- From any seat on, and in a seat again at the end. -/
def Moves (desk : Desk ε) (kind : List Interceptor → Prop) (x : Stage ε α) : Prop :=
  ∀ seat s, Abides (desk.rule kind) (fun phase _ => (desk.rule kind).waits phase) x (.seated seat) s

/-! ## Attempts -/

section Attempts

variable {desk : Desk ε} {kind : List Interceptor → Prop} {seat : Option (String × Server)} {x : Stage ε α}
  {inner : Service ε}

theorem attends_quiet (h : Obeys desk.Quiet x) : Obeys (desk.Attends kind seat) x := h.weaken fun _ _ => .quiet

theorem noting_attends : Noting Occurrence.Quiet desk.Spares (desk.Attends kind seat) where
  note s os hos := .quiet (noting_quiet.note s os hos)
  work s o hspares := .quiet (noting_quiet.work s o hspares)

theorem attending_executing {exchange : Exchange ε} (hkind : kind exchange.interceptors)
    (htransport : ∀ request, Obeys desk.Spares (exchange.transport request))
    (hhandler : ∀ method response, Obeys desk.Spares (exchange.statusHandler.decode method response)) :
    desk.Attending kind (executing exchange) := fun _ _ hsent =>
  noting_attends.executing htransport hhandler (World.quiet_told _)
    (fun _ hrequest => obeys_modify fun _ => .sends hkind hrequest hsent ⟨rfl, rfl⟩) fun _ _ => trivial

/-- What is undone besides, if it concerns neither the collaborators nor the timeline. -/
theorem attends_undone (undo : World ε → World ε)
    (hundo : ∀ s, (undo s).outside = s.outside ∧ (undo s).past = s.past) {s s' : World ε}
    (h : desk.Attends kind seat s s') : desk.Attends kind seat s (undo s') := by
  have hadds : ∀ os, desk.Adds os s s' → desk.Adds os s (undo s') := by
    rintro os ⟨hrotation, hpast⟩
    refine ⟨?_, (hundo s').2.trans hpast⟩
    unfold rotation at hrotation ⊢
    rw [(hundo s').1, hrotation]
  cases h with
  | quiet hquiet =>
    obtain ⟨os, hos, hquiet⟩ := hquiet
    exact .quiet ⟨os, hos, hadds os hquiet⟩
  | sends hkind hrequest hsent hsends => exact .sends hkind hrequest hsent (hadds _ hsends)

theorem attending_guarding {key : String} {limit : Option Duration} {fallback : Option (Fallback ε)}
    (h : ∀ f, fallback = some f → ∀ method args cause, Obeys desk.Spares (f method args cause))
    (hinner : desk.Attending kind inner) : desk.Attending kind (guarding key limit fallback inner) := by
  intro call seat hsent
  refine obeys_andThen (attends_quiet (quiet_acquire key)) fun answer => ?_
  cases answer with
  | none =>
    exact attends_quiet (obeys_andThen (quiet_log rfl) fun _ => quiet_recover h _ _)
  | some permit =>
    refine obeys_andThen ?_ fun o => attends_quiet (obeys_conclude (quiet_report permit) (quiet_recover h call) o)
    exact obeys_protect (obeys_limited (hinner call seat hsent) limit call.method)
      fun s s' => attends_undone (release permit) fun _ => ⟨rfl, rfl⟩

end Attempts

/-! ## Layers -/

section Layers

variable {desk : Desk ε} {kind : List Interceptor → Prop} {seat : Option (String × Server)} {x : Stage ε α}
  {f : α → Stage ε β} {inner : Service ε} {phase : Phase} {s : World ε}

theorem waits_seated (seat : Option (String × Server)) : (desk.rule kind).waits (.seated seat) := ⟨seat, rfl⟩

/-- An attempt keeps its seat. -/
theorem abides_of_attends (h : Obeys (desk.Attends kind seat) x) (s : World ε) :
    Abides (desk.rule kind) (fun phase _ => phase = .seated seat) x (.seated seat) s :=
  h.abides (fun _ _ hattends => Sits.attends hattends) (waits_seated seat) s

theorem moves_quiet (h : Obeys desk.Quiet x) : desk.Moves kind x := fun seat s =>
  (abides_of_attends (attends_quiet h) s).ending fun _ _ hphase => ⟨seat, hphase⟩

theorem moves_done (a : α) : desk.Moves kind (.done a) := fun seat _ => waits_seated seat

theorem moves_andThen (hx : desk.Moves kind x) (hf : ∀ a, desk.Moves kind (f a)) :
    desk.Moves kind (x.andThen f) := fun seat s => abides_andThen (hx seat s) fun _ a s hphase => by
  obtain ⟨seat', rfl⟩ := hphase
  exact hf a seat' s

theorem moves_within (h : desk.Moves kind x) (limit : Nat) : desk.Moves kind (x.within limit) := fun seat s =>
  (abides_within (h seat s)).ending fun phase a? hcut => by
    cases a? with
    | some a => exact hcut
    | none => exact hcut

/-- A lookup takes the task to the instance that is found. -/
theorem abides_choose {service : String} (hlooks : phase.Looks service) (s : World ε) :
    Abides (desk.rule kind) (fun phase' outcome => phase' = .seated (outcome.toOption.map (service, ·)))
      (choose desk.resolver service none) phase s := by
  intro _ _
  refine ⟨_, Sits.looks hlooks (desk.get_put _ _) rfl, fun _ => ⟨_, Sits.finds ⟨rfl, rfl⟩, rfl⟩⟩

/-- What is left of a call that is balanced goes on in the seat of its instance, or wherever an instance may be
looked up. -/
def Fits (phase : Phase) (service : String) : Option Server → Prop
  | none => phase.Looks service
  | some server => phase = .seated (some (service, server))

/-- By induction on the attempts that the counter has room for. -/
theorem abides_balanceFrom (hinner : desk.Attending kind inner) (config : BalancerConfig) {call : Call}
    {service : String} (htarget : call.target = .service service) (room : Nat) :
    ∀ (state : BalanceState) (phase : Phase) (s : World ε), Fits phase service state.server →
      Abides (desk.rule kind) (fun phase' _ => (desk.rule kind).waits phase')
        (balanceFrom config desk.resolver inner call service room state) phase s := by
  -- with or without a current instance, the attempt is made in the seat of the instance that is chosen
  have hchosen : ∀ (state : BalanceState) (phase : Phase) (s : World ε), Fits phase service state.server →
      Abides (desk.rule kind) (fun phase' outcome => phase' = .seated (outcome.toOption.map (service, ·)))
        (choose desk.resolver service state.server) phase s := by
    intro state phase s hfits
    cases hserver : state.server with
    | none =>
      rw [hserver] at hfits
      exact abides_choose hfits s
    | some server =>
      rw [hserver] at hfits
      exact hfits
  induction room with
  | zero =>
    intro state phase s hfits
    unfold balanceFrom
    refine abides_andThen (hchosen state phase s hfits) fun phase' choice s hphase => ?_
    subst hphase
    cases choice with
    | error e => exact waits_seated _
    | ok server => exact waits_seated _
  | succ room ih =>
    intro state phase s hfits
    unfold balanceFrom
    refine abides_andThen (hchosen state phase s hfits) fun phase' choice s hphase => ?_
    subst hphase
    cases choice with
    | error e => exact waits_seated _
    | ok server =>
      have hsent : SentFrom (call.toServer server) (some (service, server)) := by
        intro service' htarget'
        cases htarget.symm.trans htarget'
        exact ⟨server, rfl, rfl⟩
      refine abides_andThen (abides_of_attends (hinner _ _ hsent) s) fun phase' o s hphase => ?_
      subst hphase
      cases o with
      | ok response => exact waits_seated _
      | error e =>
        dsimp only
        split
        · exact waits_seated _
        · split
          · refine abides_andThen (abides_of_attends (attends_quiet (quiet_log rfl)) s)
              fun phase' _ s hphase => ?_
            exact ih _ _ s hphase
          · split
            · -- the failover line is the last thing that is done in the seat
              have hleaves : Abides (desk.rule kind) (fun phase' _ => phase' = .moving service)
                  (Stage.log (nextInstanceLine call service server e)) (.seated (some (service, server))) s :=
                abides_modify ⟨_, Sits.leaves ⟨rfl, rfl⟩, rfl⟩
              refine abides_andThen hleaves fun phase' _ s hphase => ?_
              subst hphase
              exact ih _ _ s rfl
            · exact moves_quiet (obeys_andThen (quiet_log rfl) fun _ => obeys_done _) _ s

/-- A call with a URL as its target goes through in any seat. -/
theorem moves_direct (hinner : desk.Attending kind inner) {call : Call} {base : String}
    (htarget : call.target = .url base) : desk.Moves kind (inner call) := fun seat s =>
  have hsent : SentFrom call seat := fun service hservice => by cases htarget.symm.trans hservice
  (abides_of_attends (hinner call seat hsent) s).ending fun _ _ hphase => ⟨seat, hphase⟩

theorem moves_balancing (hinner : desk.Attending kind inner) (config : BalancerConfig) (call : Call) :
    desk.Moves kind (balancing config (some desk.resolver) inner call) := by
  unfold balancing
  split
  · rename_i base htarget
    exact moves_direct hinner htarget
  · rename_i service htarget
    exact fun seat s => abides_balanceFrom hinner config htarget _ _ _ s trivial

theorem layering_moves : Layering desk.Quiet fun x => desk.Moves kind x := ⟨moves_quiet, moves_andThen⟩

end Layers

end Desk

end ResilientClient
