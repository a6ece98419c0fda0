/-
Requests: everything that is sent for one attempt, and the form in which it goes on the wire.
-/
import ResilientClient.Body
import ResilientClient.Http.Header
import ResilientClient.Http.Uri

namespace ResilientClient

/-- A request for one attempt of a declared method. -/
structure Request where
  method : String
  verb : String
  uri : Http.Uri
  headers : Http.Headers
  body : RequestBody
deriving DecidableEq, Repr

/-- A request on the wire, with its body opened. -/
structure WireRequest where
  verb : String
  uri : Http.Uri
  headers : Http.Headers
  body : BodyStream
deriving DecidableEq, Repr

namespace Request

/-- The request with one more header value. -/
def withHeader (r : Request) (name : Http.HeaderName) (value : Http.HeaderValue) : Request :=
  { r with headers := r.headers.append name value }

/-- The request with a header of exactly one value. -/
def withHeaderReplaced (r : Request) (name : Http.HeaderName) (value : Http.HeaderValue) :
    Request :=
  { r with headers := r.headers.set name value }

/-- The request to another URI. -/
def withUri (r : Request) (uri : Http.Uri) : Request := { r with uri }

/-- The header value of a size. -/
def sizeValue (n : Nat) : Http.HeaderValue := ⟨Bytes.ofText (toString n)⟩

/-- The headers on the wire: a body at hand that is not empty brings its size, unless a size is
given already. -/
def wireHeaders (r : Request) : Http.Headers :=
  match r.body.size? with
  | some n =>
    if 0 < n && !r.headers.contains .contentLength then
      r.headers.append .contentLength (sizeValue n)
    else r.headers
  | none => r.headers

/-- Opens the body and puts the request into its form on the wire. -/
def toWire (r : Request) (opened : OpenedBodies) : Except Error WireRequest × OpenedBodies :=
  match r.body.open? r.method opened with
  | (.error e, opened) => (.error e, opened)
  | (.ok items, opened) => (.ok ⟨r.verb, r.uri, r.wireHeaders, items⟩, opened)

end Request

end ResilientClient
