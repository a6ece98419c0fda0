/-
How a rehearsal shows what happened, as JSON: events, log lines, and the reports of clients,
layers, breakers, resolvers and requests.
-/
import ResilientClient.Rehearsal.Act
import ResilientClient.Rehearsal.Circuit
import ResilientClient.Rehearsal.Display.Basic
import ResilientClient.Rehearsal.Edit
import ResilientClient.Rehearsal.Layers
import ResilientClient.Rehearsal.Resolution

namespace ResilientClient.Rehearsal.Display

/-! ## Events and log lines -/

/-- The hook of an event, with what it is told. -/
def hook : Event → String × List (String × Json)
  | .requestStarted r =>
    ("request_started", [("key", .string r.method), ("method", .string r.verb),
      ("uri", text r.uri.text), ("headers", headers r.headers)])
  | .responseReceived r status hs elapsed =>
    ("response_received", [("key", .string r.method), ("status", .ofNat status.code),
      ("headers", headers hs), ("elapsed_ms", millis elapsed)])
  | .bodyElement method element =>
    ("body_element", [("key", .string method), ("data", bytes element)])
  | .errorReceived method e elapsed =>
    ("error_received", [("key", .string method), ("kind", .string e.kind),
      ("elapsed_ms", millis elapsed)])
  | .retrying method attempt e delay =>
    ("retrying", [("key", .string method), ("attempt", .ofNat attempt), ("kind", .string e.kind),
      ("delay", duration delay)])

/-- An event as a listener heard it. -/
def event (heard : String × Event) : Json :=
  let (name, members) := hook heard.2
  .array [.string heard.1, .string name, .object members]

def line (l : TraceLine) : Json :=
  .array [.string l.level.text, .object (("message", .string l.message) ::
    l.fields.map fun field => (field.1, text field.2))]

def state (s : CircuitState) : Json := .string s.text

/-! ## Clients -/

mutual
def report : Report → Json
  | .element e => .object [("ok", .ofOption bytes e)]
  | .single e => .object [("single", .ofOption bytes e)]
  | .stream is ended => .object [("stream", items is), ("ended", .bool ended)]
  | .description s => text s
  | .response r is ended =>
    .object [("status", .ofNat r.status.code), ("headers", headers r.headers),
      ("content_type", .ofOption .string r.contentType?),
      ("request", .ofOption (fun q : Request => text q.uri.text) r.request),
      ("body", items is), ("ended", .bool ended)]
  | .value v => .object [("ok", .ofOption value v)]
  | .values vs => .object [("items", list (outcome fun v => .object [("ok", value v)]) vs)]
  | .declared e => .object [("method_key", .string e.key), ("descriptor", endpoint e)]
  | .done => .string "ok"
  | .breaker s count => .object [("state", .ofOption state s), ("len", .ofNat count)]
  | .noRegistry => .string "no registry"
  | .server s => server s
  | .failed e => error e
  | .missing => .object [("missing", .bool true)]
  | .cancelled => .object [("cancelled", .bool true)]
  | .several rs => .array (reports rs)

def reports : List Report → List Json
  | [] => []
  | r :: rest => report r :: reports rest
end

def scene (s : Scene) : Json :=
  .object [("result", report s.report), ("sent", list (fun q => wire q.wire q.body) s.sent),
    ("events", list event s.events), ("t_ms", millis s.time)]

/-- A client with the scenes that it was used in. -/
def client (c : Client Peers) (scenes : List Scene) : Json :=
  .object [("build", .string "ok"), ("debug", text c.describe),
    ("target", .string c.target.text), ("logical", .bool c.target.isLogical),
    ("method_keys", texts c.keys), ("steps", list scene scenes)]

/-! ## Layers -/

def call (c : Call) : Json :=
  .object [("key", .string c.method),
    ("server", .ofOption (fun s : Server => .string s.text) c.server),
    ("target", .string c.target.text), ("args", texts (c.args.map Peers.argumentText))]

def passage (p : Passage) : Json :=
  let result := outcome (fun (status, is) =>
    .object [("status", .ofNat status.code), ("body", items is)]) p.outcome
  .object [("result", result), ("calls", list call p.calls), ("events", list event p.events),
    ("breaker", .ofOption state p.state), ("t_ms", millis p.time)]

/-! ## Breakers and resolvers -/

def circuitReport : CircuitReport → Json
  | .done => .string "ok"
  | .found key => .ofOption .string key
  | .created key threshold => .object [("key", .string key), ("threshold", .ofNat threshold)]
  | .counted n => .object [("len", .ofNat n), ("is_empty", .bool (n == 0))]
  | .admitted => .string "permit"
  | .rejected e => error e
  | .noPermit => .string "no permit"

def resolutionReport : ResolutionReport → Json
  | .done => .string "ok"
  | .resolved r => outcome (fun s => .string s.text) r
  | .listed servers => list server servers
  | .subscribed n => .ofNat n
  | .sent received => .bool received
  | .noSender => .string "no sender"
  | .noResolver => .string "no resolver"
  | .ended ended => .bool ended

/-! ## Requests -/

/-- Everything that a stream yields. -/
def drain (body : BodyStream) : List (Except Error Bytes) := ((body.take none).run 0 ()).1.1

/-- A stream by all it yields. -/
def stream (body : BodyStream) : Json := items (drain body)

def requestReport : RequestReport → Json
  | .headers hs => headers hs
  | .uri u => uri u
  | .contained b => .bool b
  | .value v => .ofOption headerValue v
  | .values vs => list headerValue vs
  | .counted n => .object [("len", .ofNat n), ("is_empty", .bool (n == 0))]
  | .request r => .object (requestMembers r)
  | .transmitted w => outcome (fun w => wire w (drain w.body)) w
  | .opened s => outcome stream s
  | .failed e => error e

end ResilientClient.Rehearsal.Display
