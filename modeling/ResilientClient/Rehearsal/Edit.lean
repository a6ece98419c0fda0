/-
Rehearsals of a request: changes that are given as raw text, questions about the headers, and
transmissions, one after the other.
-/
import ResilientClient.Interceptor

namespace ResilientClient.Rehearsal

namespace Edit

/-- A header field of a raw name and value. -/
def field (name : String) (value : Bytes) : Except Error (Http.HeaderName × Http.HeaderValue) :=
  match Http.HeaderName.parse? name with
  | none => .error .invalidHeaderName
  | some n =>
    match Http.HeaderValue.ofBytes? value with
    | none => .error .invalidHeaderValue
    | some v => .ok (n, v)

/-- The name that a header list is searched for, in any case. -/
def searched (name : String) : Http.HeaderName := ⟨Http.HeaderName.fold name⟩

/-- Adds a header value. -/
def append (name : String) (value : Bytes) : Interceptor := fun request =>
  (field name value).map fun (n, v) => request.withHeader n v

/-- Makes a value the only one of a header. -/
def replace (name : String) (value : Bytes) : Interceptor := fun request =>
  (field name value).map fun (n, v) => request.withHeaderReplaced n v

/-- Adds to one header the number of values of another. -/
def countInto (counted into : String) : Interceptor := fun request =>
  append into (Bytes.ofText (toString (request.headers.valuesOf (searched counted)).length)) request

/-- Sends the request to another URI. -/
def redirect (uri : String) : Interceptor := fun request =>
  match Http.Uri.parse uri with
  | .ok uri => .ok (request.withUri uri)
  | .error fault => .error (.invalidUrl uri .unreadable fault.text)

/-- Refuses every request. -/
def refuse (e : Error) : Interceptor := fun _ => .error e

end Edit

/-- One thing that is done with a request. -/
inductive RequestAct where
  /-- Changes the headers, unless the change cannot be made at all. -/
  | change (interceptor : Except Error Interceptor)
  | redirect (uri : String)
  | contains (name : String)
  | first (name : String)
  | all (name : String)
  | count
  | showHeaders
  | showAll
  | transmit
  /-- Opens the body for a method. -/
  | openBody (method : String)

inductive RequestReport where
  | headers (headers : Http.Headers)
  | uri (uri : Http.Uri)
  | contained (contained : Bool)
  | value (value : Option Http.HeaderValue)
  | values (values : List Http.HeaderValue)
  | counted (count : Nat)
  | request (request : Request)
  | transmitted (wire : Except Error WireRequest)
  | opened (stream : Except Error BodyStream)
  | failed (error : Error)

namespace RequestAct

/-- A request with the bodies that have been opened. -/
abbrev State := Request × OpenedBodies

/-- A change of the request; a refused one leaves it as it is. -/
def changeBy (interceptor : Interceptor) (report : Request → RequestReport) (s : State) :
    RequestReport × State :=
  match interceptor s.1 with
  | .ok request => (report request, (request, s.2))
  | .error e => (.failed e, s)

/-- Does one thing. -/
def perform (s : State) : RequestAct → RequestReport × State
  | .change (.ok interceptor) => changeBy interceptor (.headers ·.headers) s
  | .change (.error e) => (.failed e, s)
  | .redirect uri => changeBy (Edit.redirect uri) (.uri ·.uri) s
  | .contains name =>
    match Http.HeaderName.parse? name with
    | some name => (.contained (s.1.headers.contains name), s)
    | none => (.failed .invalidHeaderName, s)
  | .first name => (.value (s.1.headers.first? (Edit.searched name)), s)
  | .all name => (.values (s.1.headers.valuesOf (Edit.searched name)), s)
  | .count => (.counted s.1.headers.size, s)
  | .showHeaders => (.headers s.1.headers, s)
  | .showAll => (.request s.1, s)
  | .transmit =>
    let (wire, opened) := s.1.toWire s.2
    (.transmitted wire, (s.1, opened))
  | .openBody method =>
    let (stream, opened) := s.1.body.open? method s.2
    (.opened stream, (s.1, opened))

/-- Does one thing after the other. -/
def play : List RequestAct → State → List RequestReport
  | [], _ => []
  | act :: rest, s =>
    let (report, next) := act.perform s
    report :: play rest next

end RequestAct

end ResilientClient.Rehearsal
