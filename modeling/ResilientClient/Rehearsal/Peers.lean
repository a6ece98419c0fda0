/-
The peers of a rehearsal: a transport and a service that follow scripts, resolvers with fixed
lists, and fallbacks. They remember what they were asked.
-/
import ResilientClient.HttpTransport
import ResilientClient.Rehearsal.Script
import ResilientClient.Resolver.RoundRobin
import ResilientClient.StatusHandler

namespace ResilientClient.Rehearsal

/-- A request as it arrived, with what was read of its body. -/
structure SentRequest where
  wire : WireRequest
  body : List (Except Error Bytes)

/-- What the peers remember. -/
structure Peers where
  /-- The numbers of the scripts in use, one for each answer given. -/
  answers : List Nat := []
  /-- The requests that arrived, the latest first. -/
  sent : List SentRequest := []
  /-- The calls that the scripted service was given, the latest first. -/
  calls : List Call := []
  /-- The resolvers, by number. -/
  resolvers : List RoundRobin := [.empty]

namespace Peers

/-- Changes what the peers remember and yields a value. -/
def update {α : Type} (f : Peers → α × Peers) : Fiber (Outside Peers) α :=
  .modifyGet fun _ outside =>
    let (a, own) := f outside.own
    (a, { outside with own })

/-- Counts an answer of a script; yields the number of those before. -/
def countAnswer (number : Nat) (p : Peers) : Nat × Peers :=
  (p.answers.count number, { p with answers := number :: p.answers })

/-! ## Transport -/

/-- The script for the requests whose verb and URI contain a text. -/
structure Route where
  pattern : String
  script : Script

/-- The pattern occurs in the text. -/
def occursIn (pattern : List Char) : List Char → Bool
  | [] => pattern.isEmpty
  | c :: rest => pattern.isPrefixOf (c :: rest) || occursIn pattern rest

/-- What the patterns of routes are looked for in. -/
def routeText (wire : WireRequest) : String := wire.verb ++ " " ++ wire.uri.text

/-- The first route for a request, with its number. -/
def findRoute (wire : WireRequest) (routes : List Route) : Option (Route × Nat) :=
  routes.zipIdx.find? fun entry => occursIn entry.1.pattern.toList (routeText wire).toList

/-- Answers a request by the script of its route. -/
def answerRoute (routes : List Route) (wire : WireRequest) : Fiber (Outside Peers) Outcome :=
  match findRoute wire routes with
  | none => .done (.error unanswered)
  | some (route, number) =>
    (update (countAnswer number)).andThen fun n => route.script.answer n

/-- The transport that reads a request to its end, remembers it and answers by the routes. -/
def transport (routes : List Route) : Transport Peers := fun request =>
  (HttpTransport.openWire request).andThen fun
    | .error e => .done (.error e)
    | .ok wire =>
      (wire.body.take none).andThen fun (body, _) =>
        (update fun p => ((), { p with sent := ⟨wire, body⟩ :: p.sent })).andThen fun _ =>
          answerRoute routes wire

/-- A network on which nobody answers. -/
def silentNetwork : Network Peers := fun _ => .done (.error (.transport .connect "unreachable"))

/-! ## Services -/

/-- The service that remembers each call and answers by a script. -/
def service (script : Script) : Service Peers := fun call =>
  (Stage.outside <| update fun p =>
      countAnswer 0 { p with calls := call :: p.calls }).andThen fun n => script.answer n

/-! ## Resolution -/

/-- A resolver; one that is not there has no lists. -/
def resolver (p : Peers) (number : Nat) : RoundRobin := p.resolvers.getD number .empty

/-- Replaces a resolver. -/
def putResolver (p : Peers) (number : Nat) (resolver : RoundRobin) : Peers :=
  { p with resolvers := p.resolvers.set number resolver }

/-- Looks up an instance of a service with one of the resolvers. -/
def resolve (number : Nat) : Resolver Peers := fun service =>
  update fun p =>
    let (outcome, resolver) := (p.resolver number).resolve service
    (outcome, p.putResolver number resolver)

/-- Replaces the instances of a service in one of the resolvers. -/
def setServers (number : Nat) (service : String) (servers : List Server) : Stage Peers Unit :=
  (Stage.outside <| update fun p =>
      ((), p.putResolver number ((p.resolver number).setServers service servers))).andThen fun _ =>
    Stage.log (RoundRobin.updateLine service servers)

/-- Sets the instances of several services in one of the resolvers. -/
def setAllServers (number : Nat) : List (String × List Server) → Stage Peers Unit
  | [] => .done ()
  | (service, servers) :: rest =>
    (setServers number service servers).andThen fun _ => setAllServers number rest

/-! ## Fallbacks -/

/-- A short text for an argument. -/
def argumentText : Argument → String
  | .absent => "null"
  | .value text => "v:" ++ text
  | .values texts => "vs:" ++ Text.join "+" texts
  | .map entries =>
    "m:" ++ Text.join "&" (entries.map fun entry => entry.1 ++ "=" ++ Text.join "+" entry.2)
  | .body body => "b:" ++ body.describe

/-- The fallback that answers with the method, the arguments and the kind of the failure. -/
def echo : Fallback Peers := fun method args cause =>
  let text := method ++ "|" ++ Text.join "," (args.map argumentText) ++ "|" ++ cause.kind
  .done (.ok (.ofElements .ok [Bytes.ofText text]))

/-- The fallback that always has the same result. -/
def constant (outcome : Outcome) : Fallback Peers := fun _ _ _ => .done outcome

/-- A fallback for one method on one target, or on any. -/
structure FallbackRule where
  target : Option String
  method : String
  fallback : Fallback Peers

/-- The fallback of the first rule for a method on a target. -/
def fallbackFor (rules : List FallbackRule) (target : Target) (method : String) :
    Option (Fallback Peers) :=
  let fits (rule : FallbackRule) : Bool :=
    (rule.target.isNone || rule.target == some target.name) && rule.method == method
  (rules.find? fits).map FallbackRule.fallback

/-! ## Decoders of responses -/

/-- The header that carries a code of the server. -/
def codeHeader : Http.HeaderName := ⟨"x-code"⟩

/-- The decoder that writes down all it is told, under a label. -/
def labelled (label : String) : StatusHandler.Decoder := fun method status headers body =>
  let code := ((headers.first? codeHeader).bind Http.HeaderValue.toText?).getD "-"
  Text.join "|" [label, method, toString status.code, code, toString body.length,
    String.ofList (Text.Utf8.decodeLossy body)]

/-- The statuses from `min` to `max`. -/
def between (min max : Nat) (status : Http.Status) : Bool :=
  decide (min ≤ status.code) && decide (status.code ≤ max)

end Peers

end ResilientClient.Rehearsal
