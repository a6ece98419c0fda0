/-
Feeds of server lists. A sender, the task of a subscription and everybody who asks the resolver act in any order, the
task between its own three steps too. The list of the service is at each time one of those that the channel has held,
and these follow each other in the order in which they were sent, some of them left out (`shown_in_order`). When the
task ends because the sender has gone, the list is the last one that was sent, however late that was.

The induction is on the events. What carries it is where the lists stand that the resolver shows and that the task holds
(`Shows`): the task never holds a list from before the one that is shown, and with nothing unseen it holds the last one.
-/
import ResilientClient.Proofs.Resolver.Rotation
import ResilientClient.Resolver.Subscription
import Mathlib.Order.Monotone.Basic

namespace ResilientClient

/-- A subscription with the resolver that it feeds. -/
structure Feed where
  subscription : Subscription
  resolver : RoundRobin

namespace Feed

/-- One thing that happens. -/
inductive Event where
  /-- A list is sent. -/
  | send (servers : List Server)
  /-- The sender is dropped. -/
  | dropSender
  /-- The task takes a step. -/
  | turn
  /-- Somebody else asks something of the resolver. -/
  | operate (op : RoundRobin.Operation)
deriving DecidableEq

namespace Event

/-- The list that is sent. -/
def sent? : Event → Option (List Server)
  | send servers => some servers
  | dropSender | turn | operate _ => none

/-- The list that somebody else sets for a service. -/
def listFor? (service : String) : Event → Option (List Server)
  | operate op => op.listFor? service
  | send _ | dropSender | turn => none

/-- The feed after an event. -/
def apply (f : Feed) : Event → Feed
  | send servers => { f with subscription := f.subscription.send servers }
  | dropSender => { f with subscription := f.subscription.dropSender }
  | turn =>
    let (subscription, resolver, _) := f.subscription.step (some f.resolver)
    ⟨subscription, resolver.getD f.resolver⟩
  | operate op => { f with resolver := op.apply f.resolver }

end Event

/-- A resolver that has just been subscribed to a channel: the list that this holds has been brought in. -/
def subscribe (r : RoundRobin) (service : String) (initial : List Server) : Feed :=
  ⟨.start service initial, r.setServers service initial⟩

/-- The feed after events in order. -/
def run (f : Feed) (events : List Event) : Feed := events.foldl Event.apply f

/-- The lists that a channel has held after events: the one that it begins with, and those that were sent. -/
def held (initial : List Server) (events : List Event) : List (List Server) :=
  initial :: events.filterMap Event.sent?

/-- Once the sender is gone, nothing is sent. -/
def Orderly (events : List Event) : Prop :=
  events.Pairwise fun earlier later => earlier = .dropSender → later.sent? = none

instance (events : List Event) : Decidable (Orderly events) :=
  inferInstanceAs (Decidable (List.Pairwise _ _))

/-! ## Lists and where they stand -/

/-- Among the lists that the channel has held, the one that the resolver shows stands at a position, and what the task
has come to does not fall behind it. -/
structure Shows (lists : List (List Server)) (position : Nat) (f : Feed) : Prop where
  shown : lists[position]? = some (f.resolver.servers f.subscription.service)
  latest : lists.getLast? = some f.subscription.latest
  phase : match f.subscription.phase with
    | .waiting => f.subscription.unseen = false → position + 1 = lists.length
    | .told => True
    | .holding servers => ∃ read, position ≤ read ∧ lists[read]? = some servers ∧
        (f.subscription.unseen = false → read + 1 = lists.length)
    | .ended => position + 1 = lists.length ∧ f.subscription.senderGone = true

theorem servers_eq (r : RoundRobin) (service : String) : r.servers service = (r.poolOf service).servers := by
  unfold RoundRobin.servers RoundRobin.poolOf
  cases r.pool? service <;> rfl

theorem servers_setServers (r : RoundRobin) (service : String) (servers : List Server) :
    (r.setServers service servers).servers service = servers := by
  rw [servers_eq, RoundRobin.poolOf_setServers, if_pos rfl]

/-- Only to set its list changes the list of a service. -/
theorem servers_apply {op : RoundRobin.Operation} {service : String} (h : op.listFor? service = none)
    (r : RoundRobin) : (op.apply r).servers service = r.servers service := by
  rw [servers_eq, servers_eq]
  by_cases hop : service = op.service
  · subst hop
    rw [RoundRobin.poolOf_apply_self]
    cases op with
    | set service servers => simp [RoundRobin.Operation.listFor?, RoundRobin.Operation.service] at h
    | resolve service =>
      change (RoundRobin.turned _).servers = _
      unfold RoundRobin.turned
      split <;> rfl
  · rw [RoundRobin.poolOf_apply_of_ne r hop]

section Steps

variable {f : Feed} {lists : List (List Server)} {position : Nat}

theorem shows_subscribe (r : RoundRobin) (service : String) (initial : List Server) :
    Shows [initial] 0 (subscribe r service initial) :=
  ⟨congrArg some (servers_setServers r service initial).symm, rfl, fun _ => rfl⟩

/-- A list that is sent is the last one and unseen; none of the earlier ones moves. -/
theorem Shows.send (h : Shows lists position f) (hgone : f.subscription.senderGone = false)
    (servers : List Server) : Shows (lists ++ [servers]) position (Event.apply f (.send servers)) := by
  obtain ⟨hshown, hlatest, hphase⟩ := h
  have hended : f.subscription.ended = false := by
    by_contra hended
    have hended : f.subscription.phase = .ended := by simpa [Subscription.ended] using hended
    rw [hended] at hphase
    rw [hphase.2] at hgone
    cases hgone
  have hkept : ∀ {i : Nat} {list : List Server}, lists[i]? = some list → (lists ++ [servers])[i]? = some list :=
    fun {i list} hi => (List.getElem?_append_left (List.getElem?_eq_some_iff.1 hi).1).trans hi
  have hsent : Event.apply f (.send servers) =
      { f with subscription := { f.subscription with latest := servers, unseen := true } } := by
    simp [Event.apply, Subscription.send, hended]
  rw [hsent]
  refine ⟨hkept hshown, List.getLast?_concat, ?_⟩
  cases hp : f.subscription.phase with
  | waiting => exact nofun
  | told => trivial
  | holding held =>
    rw [hp] at hphase
    obtain ⟨read, hle, hread, -⟩ := hphase
    exact ⟨read, hle, hkept hread, nofun⟩
  | ended => simp [Subscription.ended, hp] at hended

/-- A turn of the task brings in no list from before the one that is shown. -/
theorem Shows.turn (h : Shows lists position f) :
    ∃ later, position ≤ later ∧ Shows lists later (Event.apply f .turn) := by
  obtain ⟨⟨service, latest, unseen, gone, phase⟩, r⟩ := f
  obtain ⟨hshown, hlatest, hphase⟩ := h
  cases phase with
  | waiting =>
    refine ⟨position, le_rfl, ?_⟩
    cases unseen with
    | true => exact ⟨hshown, hlatest, trivial⟩
    | false =>
      cases gone with
      | true => exact ⟨hshown, hlatest, hphase rfl, rfl⟩
      | false => exact ⟨hshown, hlatest, hphase⟩
  | told =>
    refine ⟨position, le_rfl, hshown, hlatest, lists.length - 1, ?_, ?_, fun _ => ?_⟩
    · have hlt := (List.getElem?_eq_some_iff.1 hshown).1
      omega
    · rwa [← List.getLast?_eq_getElem?]
    · have hlt := (List.getElem?_eq_some_iff.1 hshown).1
      omega
  | holding servers =>
    obtain ⟨read, hle, hread, hlast⟩ := hphase
    refine ⟨read, hle, ?_, hlatest, hlast⟩
    change lists[read]? = some ((r.setServers service servers).servers service)
    rw [servers_setServers, hread]
  | ended => exact ⟨position, le_rfl, hshown, hlatest, hphase⟩

/-- Whatever happens, the list that is shown does not fall back. -/
theorem Shows.step (h : Shows lists position f) {event : Event}
    (hgone : f.subscription.senderGone = true → event.sent? = none)
    (halone : event.listFor? f.subscription.service = none) :
    ∃ later, position ≤ later ∧ Shows (lists ++ event.sent?.toList) later (event.apply f) := by
  cases event with
  | send servers =>
    have hhere : f.subscription.senderGone = false := by
      by_contra hgone'
      cases hgone (by simpa using hgone')
    exact ⟨position, le_rfl, h.send hhere servers⟩
  | dropSender =>
    obtain ⟨⟨service, latest, unseen, gone, phase⟩, r⟩ := f
    obtain ⟨hshown, hlatest, hphase⟩ := h
    refine ⟨position, le_rfl, ?_⟩
    rw [Event.sent?, Option.toList_none, List.append_nil]
    refine ⟨hshown, hlatest, ?_⟩
    cases phase with
    | ended => exact ⟨hphase.1, rfl⟩
    | waiting | told | holding => exact hphase
  | turn =>
    rw [Event.sent?, Option.toList_none, List.append_nil]
    exact h.turn
  | operate op =>
    refine ⟨position, le_rfl, ?_⟩
    rw [Event.sent?, Option.toList_none, List.append_nil]
    exact ⟨h.shown.trans (congrArg some (servers_apply halone f.resolver).symm), h.latest, h.phase⟩

/-! ## Runs -/

@[simp] theorem service_apply (f : Feed) (event : Event) :
    (event.apply f).subscription.service = f.subscription.service := by
  obtain ⟨⟨service, latest, unseen, gone, phase⟩, r⟩ := f
  cases event with
  | send servers =>
    simp only [Event.apply, Subscription.send]
    split <;> rfl
  | dropSender | operate => rfl
  | turn => cases phase <;> cases unseen <;> cases gone <;> rfl

/-- The sender goes when it is dropped. -/
theorem senderGone_apply (f : Feed) (event : Event) :
    (event.apply f).subscription.senderGone = (f.subscription.senderGone || event == .dropSender) := by
  obtain ⟨⟨service, latest, unseen, gone, phase⟩, r⟩ := f
  cases event with
  | send servers =>
    simp only [Event.apply, Subscription.send]
    split <;> simp
  | dropSender => simp [Event.apply, Subscription.dropSender]
  | operate => simp [Event.apply]
  | turn => cases phase <;> cases unseen <;> cases gone <;> rfl

@[simp] theorem service_run (f : Feed) (events : List Event) :
    (f.run events).subscription.service = f.subscription.service := by
  induction events generalizing f with
  | nil => rfl
  | cons event events ih => exact (ih (event.apply f)).trans (service_apply f event)

/-- After each event of a run the list stands at a position, and the positions do not go back. -/
theorem Shows.run {events : List Event} : ∀ {f : Feed} {lists : List (List Server)} {position : Nat},
    Shows lists position f → Orderly events →
    (f.subscription.senderGone = true → ∀ event ∈ events, event.sent? = none) →
    (∀ event ∈ events, event.listFor? f.subscription.service = none) →
      ∃ positions : Nat → Nat, positions 0 = position ∧ Monotone positions ∧ ∀ k,
        Shows (lists ++ (events.take k).filterMap Event.sent?) (positions k) (f.run (events.take k)) := by
  induction events with
  | nil =>
    intro f lists position h _ _ _
    refine ⟨fun _ => position, rfl, monotone_const, fun k => ?_⟩
    rw [List.take_nil, List.filterMap_nil, List.append_nil]
    exact h
  | cons event events ih =>
    intro f lists position h horderly hgone halone
    obtain ⟨hfirst, horderly⟩ := List.pairwise_cons.1 horderly
    obtain ⟨later, hle, hlater⟩ :=
      h.step (fun hsender => hgone hsender event List.mem_cons_self) (halone event List.mem_cons_self)
    obtain ⟨positions, hzero, hmono, hshows⟩ := ih hlater horderly
      (fun hsender other hother => by
        rw [senderGone_apply, Bool.or_eq_true, beq_iff_eq] at hsender
        rcases hsender with hsender | hsender
        · exact hgone hsender other (List.mem_cons_of_mem _ hother)
        · exact hfirst other hother hsender)
      (fun other hother => by
        rw [service_apply]
        exact halone other (List.mem_cons_of_mem _ hother))
    refine ⟨fun k => k.casesOn position positions, rfl, monotone_nat_of_le_succ fun k => ?_, fun k => ?_⟩
    · cases k with
      | zero => exact hle.trans (Nat.le_of_eq hzero.symm)
      | succ k => exact hmono (Nat.le_succ k)
    · cases k with
      | zero =>
        rw [List.take_zero, List.filterMap_nil, List.append_nil]
        exact h
      | succ k =>
        have hsent : lists ++ event.sent?.toList ++ (events.take k).filterMap Event.sent? =
            lists ++ ((event :: events).take (k + 1)).filterMap Event.sent? := by
          rw [List.append_assoc, List.take_succ_cons]
          cases hevent : event.sent? <;> simp [hevent]
        exact hsent ▸ hshows k

end Steps

/-! ## The end of the task -/

/-- How many turns the task takes to end once the sender is gone. -/
def turnsLeft (s : Subscription) : Nat :=
  match s.phase with
  | .waiting => if s.unseen then 4 else 1
  | .told => 3
  | .holding _ => if s.unseen then 5 else 2
  | .ended => 0

theorem turnsLeft_le (s : Subscription) : turnsLeft s ≤ 5 := by
  unfold turnsLeft
  split <;> (try split) <;> omega

theorem ended_iff_turnsLeft (s : Subscription) : s.ended = true ↔ turnsLeft s = 0 := by
  obtain ⟨service, latest, unseen, gone, phase⟩ := s
  cases phase <;> cases unseen <;> simp [Subscription.ended, turnsLeft]

/-- Without a sender every turn brings the end nearer, and nothing else puts it off. -/
theorem turnsLeft_apply {f : Feed} (hgone : f.subscription.senderGone = true) {event : Event}
    (hsilent : event.sent? = none) :
    turnsLeft (event.apply f).subscription = turnsLeft f.subscription - if event = .turn then 1 else 0 := by
  obtain ⟨⟨service, latest, unseen, gone, phase⟩, r⟩ := f
  obtain rfl : gone = true := hgone
  cases event with
  | send servers => cases hsilent
  | dropSender | operate => rfl
  | turn => cases phase <;> cases unseen <;> rfl

theorem turnsLeft_run {events : List Event} : ∀ {f : Feed}, f.subscription.senderGone = true →
    (∀ event ∈ events, event.sent? = none) →
      turnsLeft (f.run events).subscription = turnsLeft f.subscription - events.count .turn := by
  induction events with
  | nil => exact fun _ _ => rfl
  | cons event events ih =>
    intro f hgone hsilent
    have hgone' : (event.apply f).subscription.senderGone = true := by
      rw [senderGone_apply, hgone, Bool.true_or]
    refine (ih hgone' fun other hother => hsilent other (List.mem_cons_of_mem _ hother)).trans ?_
    rw [turnsLeft_apply hgone (hsilent event List.mem_cons_self), List.count_cons]
    by_cases hturn : event = .turn
    · rw [if_pos hturn, if_pos (by simpa using hturn)]
      omega
    · rw [if_neg hturn, if_neg (by simpa using hturn)]
      rfl

theorem senderGone_run (f : Feed) (events : List Event) : (f.run events).subscription.senderGone = true ↔
    f.subscription.senderGone = true ∨ .dropSender ∈ events := by
  induction events generalizing f with
  | nil => simp [run]
  | cons event events ih =>
    refine (ih (event.apply f)).trans ?_
    rw [senderGone_apply, Bool.or_eq_true, beq_iff_eq, List.mem_cons, or_assoc, @eq_comm _ event]

/-- Five turns after the sender was dropped, the task has ended. -/
theorem ended_of_turns (f : Feed) {before after : List Event} (horderly : Orderly (before ++ .dropSender :: after))
    (hturns : 5 ≤ after.count .turn) : (f.run (before ++ .dropSender :: after)).subscription.ended = true := by
  have hsilent : ∀ event ∈ after, event.sent? = none := fun event hevent =>
    (List.pairwise_cons.1 (List.pairwise_append.1 horderly).2.1).1 event hevent rfl
  have hgone : (f.run (before ++ [.dropSender])).subscription.senderGone = true :=
    (senderGone_run f _).2 (.inr (by simp))
  have hleft := turnsLeft_run hgone hsilent
  have hle := turnsLeft_le (f.run (before ++ [.dropSender])).subscription
  rw [ended_iff_turnsLeft, List.append_cons, run, List.foldl_append]
  exact hleft.trans (by omega)

/-- However the sends, the steps of the task and the end of the sender fall between each other and between what others
ask of the resolver, the list of the service stands at each time at a position among the lists that the channel has
held, and the positions do not go back. When the task has ended, which takes it five steps at most after the sender
was dropped, the position is that of the last list. -/
theorem shown_in_order (r : RoundRobin) (service : String) (initial : List Server) (events : List Event)
    (horderly : Orderly events) (halone : ∀ event ∈ events, event.listFor? service = none) :
    (∃ positions : Nat → Nat, Monotone positions ∧ ∀ k,
      let f := (subscribe r service initial).run (events.take k)
      (held initial (events.take k))[positions k]? = some (f.resolver.servers service) ∧
        (f.subscription.ended = true →
          .dropSender ∈ events.take k ∧ positions k + 1 = (held initial (events.take k)).length ∧
            (held initial (events.take k)).getLast? = some (f.resolver.servers service))) ∧
    ∀ before after, events = before ++ .dropSender :: after → 5 ≤ after.count .turn →
      ((subscribe r service initial).run events).subscription.ended = true := by
  obtain ⟨positions, -, hmono, hshows⟩ :=
    (shows_subscribe r service initial).run horderly nofun halone
  refine ⟨⟨positions, hmono, fun k => ?_⟩, fun before after hevents hturns => ?_⟩
  · have hservice : ((subscribe r service initial).run (events.take k)).subscription.service = service :=
      service_run _ _
    obtain ⟨hshown, -, hphase⟩ := hshows k
    rw [hservice] at hshown
    refine ⟨hshown, fun hended => ?_⟩
    rw [Subscription.ended, beq_iff_eq] at hended
    rw [hended] at hphase
    obtain ⟨hlast, hgone⟩ := hphase
    refine ⟨((senderGone_run _ _).1 hgone).resolve_left nofun, hlast, ?_⟩
    have hindex : (held initial (events.take k)).length - 1 = positions k := by
      change ([initial] ++ _).length - 1 = _
      omega
    rw [List.getLast?_eq_getElem?, hindex]
    exact hshown
  · subst hevents
    exact ended_of_turns _ horderly hturns

/-- An instance of the host. -/
def plainServer (host : String) : Server := ⟨host, 80, false, []⟩

/-- A list comes after the task has read the one before it, and the sender goes at once. -/
def lateEvents : List Event :=
  [.send [plainServer "b"], .turn, .turn, .operate (.resolve "users"), .send [plainServer "c"], .dropSender, .turn,
    .turn, .turn, .operate (.resolve "users"), .turn, .turn]

/-- The list that the task has read is brought in before the one that was sent last, and this one all the same. -/
theorem shown_in_order_late :
    let f := subscribe .empty "users" [plainServer "a"]
    Orderly lateEvents ∧ (∀ event ∈ lateEvents, event.listFor? "users" = none) ∧
      (f.run (lateEvents.take 6)).resolver.servers "users" = [plainServer "a"] ∧
      (f.run (lateEvents.take 7)).resolver.servers "users" = [plainServer "b"] ∧
      (f.run lateEvents).resolver.servers "users" = [plainServer "c"] := by
  intro f
  have horderly : Orderly lateEvents := by decide
  have halone : ∀ event ∈ lateEvents, event.listFor? "users" = none := by decide
  obtain ⟨⟨positions, -, hpositions⟩, hends⟩ :=
    shown_in_order .empty "users" [plainServer "a"] lateEvents horderly halone
  obtain ⟨-, -, hlast⟩ := (hpositions lateEvents.length).2
    (by rw [List.take_length]; exact hends (lateEvents.take 5) (lateEvents.drop 6) rfl (by decide))
  rw [List.take_length] at hlast
  exact ⟨horderly, halone, by decide, by decide, (Option.some.inj hlast).symm⟩

end Feed

end ResilientClient
