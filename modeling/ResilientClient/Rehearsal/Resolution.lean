/-
Rehearsals of a resolver with subscriptions: lists are set, sent and resolved, senders and the
resolver go, and after each of these the tasks of the subscriptions run until they wait.
-/
import ResilientClient.Resolver.Subscription

namespace ResilientClient.Rehearsal

/-- One thing that is done with the resolver or a subscription. -/
inductive ResolutionAct where
  | set (service : String) (servers : List Server)
  | resolve (service : String)
  | list (service : String)
  | subscribe (service : String) (initial : List Server)
  | send (number : Nat) (servers : List Server)
  | dropSender (number : Nat)
  | dropResolver
  | askEnded (number : Nat)
deriving DecidableEq, Repr

inductive ResolutionReport where
  | done
  | resolved (outcome : Except Error Server)
  | listed (servers : List Server)
  | subscribed (number : Nat)
  /-- Whether somebody receives what is sent. -/
  | sent (received : Bool)
  | noSender
  | noResolver
  | ended (ended : Bool)

/-- A resolver, which may be gone, with its subscriptions. -/
structure Resolution where
  resolver : Option RoundRobin
  subscriptions : List Subscription
  lines : List TraceLine
deriving DecidableEq, Repr

namespace Resolution

def start : Resolution := ⟨some .empty, [], []⟩

/-- Does something with the resolver unless it is gone. -/
def withResolver (r : Resolution) (act : RoundRobin → ResolutionReport × Resolution) :
    ResolutionReport × Resolution :=
  match r.resolver with
  | some resolver => act resolver
  | none => (.noResolver, r)

/-- Sets the list of a service. -/
def set (r : Resolution) (resolver : RoundRobin) (service : String) (servers : List Server) :
    Resolution :=
  { r with
    resolver := some (resolver.setServers service servers)
    lines := r.lines ++ [RoundRobin.updateLine service servers] }

/-- Sends a list to a subscription whose sender is still there. -/
def send (r : Resolution) (number : Nat) (servers : List Server) :
    ResolutionReport × Resolution :=
  match r.subscriptions[number]? with
  | none => (.noSender, r)
  | some s =>
    if s.senderGone then (.noSender, r)
    else (.sent (!s.ended),
      { r with subscriptions := r.subscriptions.set number (s.send servers) })

/-- Does one thing, before the tasks run. -/
def act (r : Resolution) : ResolutionAct → ResolutionReport × Resolution
  | .set service servers => r.withResolver fun resolver => (.done, r.set resolver service servers)
  | .resolve service =>
    r.withResolver fun resolver =>
      let (outcome, resolver) := resolver.resolve service
      (.resolved outcome, { r with resolver := some resolver })
  | .list service => r.withResolver fun resolver => (.listed (resolver.servers service), r)
  | .subscribe service initial =>
    r.withResolver fun resolver =>
      let set := r.set resolver service initial
      (.subscribed r.subscriptions.length,
        { set with subscriptions := set.subscriptions ++ [.start service initial] })
  | .send number servers => r.send number servers
  | .dropSender number =>
    (.done, { r with
      subscriptions := r.subscriptions.modify number Subscription.dropSender })
  | .dropResolver => (.done, { r with resolver := none })
  | .askEnded number =>
    (.ended ((r.subscriptions[number]?.map Subscription.ended).getD false), r)

/-- Runs the tasks of some subscriptions until they wait. -/
def settleAll (resolver : Option RoundRobin) : List Subscription →
    List Subscription × Option RoundRobin × List TraceLine
  | [] => ([], resolver, [])
  | s :: rest =>
    let (s, resolver, lines) := s.settle resolver
    let (rest, resolver, later) := settleAll resolver rest
    (s :: rest, resolver, lines ++ later)

/-- Runs all tasks until they wait. -/
def settle (r : Resolution) : Resolution :=
  let (subscriptions, resolver, lines) := settleAll r.resolver r.subscriptions
  ⟨resolver, subscriptions, r.lines ++ lines⟩

/-- Does one thing after the other. -/
def play : List ResolutionAct → Resolution → List ResolutionReport × Resolution
  | [], r => ([], r)
  | act :: rest, r =>
    let (report, next) := r.act act
    let (reports, last) := play rest next.settle
    (report :: reports, last)

end Resolution

end ResilientClient.Rehearsal
