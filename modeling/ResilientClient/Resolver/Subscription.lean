/-
Subscriptions: a channel that holds the latest list of instances of a service, and a task that
brings each list it has not seen yet into the resolver. A list that is sent before the sender goes
is still brought in. The task is told that there is a list, reads the latest one and brings in what
it has read; others may act between any two of these.
-/
import ResilientClient.Resolver.RoundRobin

namespace ResilientClient

/-- How far the task of a subscription has come. -/
inductive Subscription.Phase where
  /-- It waits for a list that it has not seen. -/
  | waiting
  /-- It has been told that there is one. -/
  | told
  /-- It has read a list that it is about to bring in. -/
  | holding (servers : List Server)
  | ended
deriving DecidableEq, Repr

/-- A channel with its task. -/
structure Subscription where
  service : String
  /-- The latest list. -/
  latest : List Server
  /-- The task has not seen the latest list. -/
  unseen : Bool
  /-- The sender has been dropped. -/
  senderGone : Bool
  phase : Subscription.Phase
deriving DecidableEq, Repr

namespace Subscription

/-- A subscription whose first list has been brought in. -/
def start (service : String) (initial : List Server) : Subscription :=
  ⟨service, initial, false, false, .waiting⟩

/-- The task has ended. -/
def ended (s : Subscription) : Bool := s.phase == .ended

/-- Sends a list; without a receiver it is lost. -/
def send (s : Subscription) (servers : List Server) : Subscription :=
  if s.ended then s else { s with latest := servers, unseen := true }

/-- Drops the sender. -/
def dropSender (s : Subscription) : Subscription := { s with senderGone := true }

/-- The log line of a task that ends. -/
def endLine (service : String) : TraceLine :=
  ⟨.debug, "server list subscription ended", [("service", service)]⟩

/-- One turn of the task. A list that it has not seen comes before the end of the sender; when the
resolver is gone by the time that the task has been told of a list, it ends. -/
def step (s : Subscription) (resolver : Option RoundRobin) :
    Subscription × Option RoundRobin × List TraceLine :=
  match s.phase with
  | .waiting =>
    if s.unseen then ({ s with unseen := false, phase := .told }, resolver, [])
    else if s.senderGone then ({ s with phase := .ended }, resolver, [endLine s.service])
    else (s, resolver, [])
  | .told =>
    match resolver with
    | none => ({ s with phase := .ended }, none, [endLine s.service])
    | some r => ({ s with unseen := false, phase := .holding s.latest }, some r, [])
  | .holding servers =>
    ({ s with phase := .waiting }, resolver.map fun r => r.setServers s.service servers,
      [RoundRobin.updateLine s.service servers])
  | .ended => (s, resolver, [])

/-- Some turns of the task, with nobody else in between. -/
def turns (s : Subscription) (resolver : Option RoundRobin) :
    Nat → Subscription × Option RoundRobin × List TraceLine
  | 0 => (s, resolver, [])
  | n + 1 =>
    let (s, resolver, first) := s.step resolver
    let (s, resolver, later) := s.turns resolver n
    (s, resolver, first ++ later)

/-- Runs the task until it has to wait, which takes five turns at most. -/
def settle (s : Subscription) (resolver : Option RoundRobin) :
    Subscription × Option RoundRobin × List TraceLine :=
  s.turns resolver 5

/-- By then a further turn does nothing. -/
theorem step_settle (s : Subscription) (resolver : Option RoundRobin) :
    (s.settle resolver).1.step (s.settle resolver).2.1 =
      ((s.settle resolver).1, (s.settle resolver).2.1, []) := by
  obtain ⟨service, latest, unseen, gone, phase⟩ := s
  cases phase <;> cases unseen <;> cases gone <;> cases resolver <;> rfl

end Subscription

end ResilientClient
