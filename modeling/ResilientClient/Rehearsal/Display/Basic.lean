/-
How a rehearsal shows what it deals with, as JSON: bytes and texts, of which long ones are shown by
their length and a hash, spans of time, failures, requests, methods and instances.
-/
import ResilientClient.Config.Json
import ResilientClient.Endpoint
import ResilientClient.Response
import ResilientClient.Target

namespace ResilientClient.Rehearsal.Display

/-! ## Lists, bytes, texts, numbers -/

def list {α : Type} (shown : α → Json) (xs : List α) : Json := .array (xs.map shown)

def texts (xs : List String) : Json := list .string xs

/-- Digits with zeros before them up to a width. -/
def padded (width : Nat) (digits : List Char) : String :=
  String.ofList (List.replicate (width - digits.length) '0' ++ digits)

/-- The sixteen hexadecimal digits of a word. -/
def word (n : UInt64) : String := padded 16 (Nat.toDigits 16 n.toNat)

/-- The 64-bit FNV-1a hash: each byte is added by exclusive or before a multiplication. -/
def hash (bytes : Bytes) : UInt64 :=
  bytes.foldl (fun h b => (h ^^^ b.toUInt64) * 0x100000001b3) 0xcbf29ce484222325

/-- The most bytes that are shown themselves. -/
def longest : Nat := 2048

/-- Bytes: as a text, in hexadecimal digits when they are none, and by length and hash when they
are many. -/
def bytes (bs : Bytes) : Json :=
  if longest < bs.length then
    .object [("len", .ofNat bs.length), ("fnv1a64", .string (word (hash bs)))]
  else
    match Bytes.toText? bs with
    | some s => .string s
    | none => .object [("hex", .string (String.ofList (bs.flatMap Bytes.lowerHex)))]

def text (s : String) : Json := bytes (Bytes.ofText s)

/-- A span of time in seconds with nine places. -/
def duration (d : Duration) : Json :=
  .string (toString d.seconds ++ "." ++ padded 9 (Nat.toDigits 10 d.subsecond))

/-- The whole milliseconds of a span in nanoseconds. -/
def millis (nanos : Nat) : Json := .ofNat (nanos / 1000000)

/-- A number by its bits. -/
def float (x : Binary64) : Json := .string (word x.bits)

mutual
/-- A decoded value: numbers that are no integers by their bits. -/
def value : Json → Json
  | .float x => .object [("f64", float x)]
  | .array items => .array (values items)
  | .object members => .object (valueMembers members)
  | v => v

def values : List Json → List Json
  | [] => []
  | v :: rest => value v :: values rest

def valueMembers : List (String × Json) → List (String × Json)
  | [] => []
  | (n, v) :: rest => (n, value v) :: valueMembers rest
end

mutual
/-- A written configuration: numbers that are no integers by their bits. -/
def config : Json → Json
  | .float x => float x
  | .object members => .object (configMembers members)
  | v => v

def configMembers : List (String × Json) → List (String × Json)
  | [] => []
  | (n, v) :: rest => (n, config v) :: configMembers rest
end

/-! ## Failures -/

/-- A wait that a server asked for: the date that it named, or the span. -/
def hint (h : Http.RetryHint) : Json :=
  match h.date with
  | some date => .object [("until_epoch", .ofNat date)]
  | none => duration h.delay

def urlFault : UrlFault → String
  | .unreadable => "ParseError"
  | .noScheme => "MissingScheme"
  | .noAuthority => "MissingAuthority"

def connectionFault : ConnectionFault → String
  | .connect => "Connect"
  | .exchange => "Io"

def jsonFault : JsonFault → String
  | .malformed => "Syntax"
  | .truncated => "Eof"
  | .mismatched => "Data"

/-- The message of a failure is shown unless a reader of JSON or of URLs worded it. -/
def hasMessage (e : Error) : Bool :=
  match e.rootCause with
  | .json _ => false
  | .invalidUrl _ .unreadable _ => false
  | _ => true

/-- The parts of a handled status. -/
def handledStatus (method : String) (status : Http.Status) (retryAfter : Option Http.RetryHint) :
    List (String × Json) :=
  [("method_key", .string method), ("status", .ofNat status.code),
   ("retry_after", .ofOption hint retryAfter)]

/-- A failure: its kind, its message and its parts. -/
def error (e : Error) : Json :=
  let message := if hasMessage e then [("message", text e.message)] else []
  let parts : List (String × Json) :=
    match e with
    | .invalidUrl url fault reason =>
      [("kind", .string (urlFault fault)), ("url", text url)] ++
        if fault = .unreadable then [] else [("reason", .string reason)]
    | .schemeRefused scheme reason => [("scheme", .string scheme), ("reason", .string reason)]
    | .unsupportedReturn method shape => [("method_key", .string method), ("shape", .string shape)]
    | .bodyConsumed method => [("method_key", .string method)]
    | .transport fault _ => [("kind", .string (connectionFault fault))]
    | .timeout limit => [("timeout", duration limit)]
    | .status method status preview contentType retryAfter =>
      handledStatus method status retryAfter ++
        [("body_preview", text preview), ("content_type", .ofOption .string contentType)]
    | .decoded method status retryAfter _ => handledStatus method status retryAfter
    | .decodedFrom method status retryAfter _ => handledStatus method status retryAfter
    | .noInstances service => [("service", .string service)]
    | .outOfRetries attempts last => [("attempts", .ofNat attempts), ("source", error last)]
    | .circuitOpen breaker => [("breaker_key", .string breaker)]
    | .executionTimeout method limit =>
      [("method_key", .string method), ("timeout", duration limit)]
    | .bodyTooLarge limit actual => [("limit", .ofNat limit), ("actual", .ofNat actual)]
    | .json fault => [("category", .string (jsonFault fault))]
    | _ => []
  .object (("error", .string e.kind) :: message ++ parts)

/-- A result, or the failure in its place. -/
def outcome {α : Type} (shown : α → Json) : Except Error α → Json
  | .ok a => shown a
  | .error e => error e

/-- A failure with the classes that it belongs to. -/
def errorFacts (e : Error) : Json :=
  .object [("value", error e), ("is_construction", .bool e.isConstruction),
    ("status", .ofOption (fun s : Http.Status => .ofNat s.code) e.status?),
    ("is_client_request_error", .bool e.isClientRequestError),
    ("is_circuit_open", .bool e.isCircuitOpen),
    ("retry_after", .ofOption hint e.retryHint?),
    ("root_cause", .string e.rootCause.kind), ("source_chain", texts e.causes)]

/-! ## Requests and responses -/

def item (i : Except Error Bytes) : Json := outcome (fun bs => .object [("ok", bytes bs)]) i

def items (is : List (Except Error Bytes)) : Json := list item is

def headerValue (v : Http.HeaderValue) : Json := bytes v.bytes

def headers (hs : Http.Headers) : Json :=
  list (fun field => .array [text field.1.text, list headerValue field.2]) hs.fields

def uri (u : Http.Uri) : Json :=
  .object [("text", text u.text), ("scheme", .ofOption .string u.scheme),
    ("host", .ofOption .string u.host?), ("port", .ofOption .ofNat u.port?),
    ("path", text u.path), ("query", .ofOption text u.query)]

def bodyMembers (b : RequestBody) : List (String × Json) :=
  [("debug", .string b.describe), ("is_empty", .bool b.isEmpty),
   ("known_len", .ofOption .ofNat b.size?)]

def requestMembers (r : Request) : List (String × Json) :=
  [("method_key", .string r.method), ("method", .string r.verb), ("uri", uri r.uri),
   ("headers", headers r.headers), ("body", .object (bodyMembers r.body))]

def wire (w : WireRequest) (body : List (Except Error Bytes)) : Json :=
  .object [("method", .string w.verb), ("uri", text w.uri.text), ("headers", headers w.headers),
    ("body", items body)]

/-- The parts of a response besides its body, read at a time of day. -/
def responseFacts (wallClock : Nat) (r : Response) : Json :=
  .object [("status", .ofNat r.status.code), ("headers", headers r.headers),
    ("content_type", .ofOption .string r.contentType?),
    ("retry_after", .ofOption hint (r.retryHint? wallClock)),
    ("has_request", .bool r.request.isSome)]

/-! ## Methods and instances -/

def template (t : Template) : Json :=
  .object [("source", text t.source), ("placeholders", texts t.placeholders),
    ("is_literal", .bool t.isLiteral)]

def shape : ReturnShape → Json
  | .single => .string "single"
  | .stream => .string "stream"
  | .unsupported s => .object [("unsupported", .string s)]

def endpoint (e : Endpoint) : Json :=
  .object [("key", .string e.key), ("method", .string e.verb), ("path", template e.path),
    ("body_index", .ofOption .ofNat e.bodyIndex), ("return_shape", shape e.returns),
    ("validate", outcome (fun _ => .string "ok") e.validate)]

def server (s : Server) : Json :=
  .object [("display", .string s.text), ("host", .string s.host), ("port", .ofNat s.port),
    ("base_url", .string s.baseUrl),
    ("metadata", list (fun entry => .array [.string entry.1, .string entry.2]) s.metadata)]

end ResilientClient.Rehearsal.Display
