/-
Responses: status, headers and a body that is read once, chunk by chunk. Reading stops at the first
failure and at the first chunk that exceeds the limit.
-/
import ResilientClient.Config.Basic
import ResilientClient.Fiber
import ResilientClient.Request
import ResilientClient.Text.Quoted
import ResilientClient.Text.Utf8

namespace ResilientClient

/-! ## Reading a body -/

namespace BodyStream

variable {σ : Type}

/-- Reads a whole body behind the chunks already read, the last one first, up to a limit on the
number of bytes, of which there are `size` so far. -/
def readBehind (limit : Nat) (chunks : List Bytes) (size : Nat) :
    BodyStream → Fiber σ (Except Error Bytes)
  | [] => .done (.ok chunks.reverse.flatten)
  | .failure e :: _ => .done (.error e)
  | .pause d :: rest => (Fiber.sleep d).andThen fun _ => readBehind limit chunks size rest
  | .chunk bytes :: rest =>
    if limit < size + bytes.length then
      .done (.error (.bodyTooLarge limit (size + bytes.length)))
    else readBehind limit (bytes :: chunks) (size + bytes.length) rest

/-- Reads a whole body of at most `limit` bytes. -/
def readAll (limit : Nat) (body : BodyStream) : Fiber σ (Except Error Bytes) :=
  readBehind limit [] 0 body

/-- What stands for a body that is too large to be shown. -/
def tooLargeText : String := "<body too large for preview>"

/-- Reads a body of at most `limit` bytes as text; of a larger one only a remark is kept. -/
def preview (limit : Nat) (body : BodyStream) : Fiber σ (Except Error String) :=
  (readAll limit body).andThen fun
    | .ok bytes => .done (.ok (String.ofList (Text.Utf8.decodeLossy bytes)))
    | .error (.bodyTooLarge _ _) => .done (.ok tooLargeText)
    | .error e => .done (.error e)

/-- Reads the items of a body, at most `limit` of them if one is given; the flag says that the end
was reached. -/
def take : Option Nat → BodyStream → Fiber σ (List (Except Error Bytes) × Bool)
  | some 0, _ => .done ([], false)
  | _, [] => .done ([], true)
  | limit, .pause d :: rest => (Fiber.sleep d).andThen fun _ => take limit rest
  | limit, .chunk bytes :: rest =>
    (take (limit.map (· - 1)) rest).andThen fun p => .done (.ok bytes :: p.1, p.2)
  | limit, .failure e :: rest =>
    (take (limit.map (· - 1)) rest).andThen fun p => .done (.error e :: p.1, p.2)

end BodyStream

/-! ## Responses -/

/-- A response; one that was made up on the way carries no request. -/
structure Response where
  status : Http.Status
  headers : Http.Headers
  body : BodyStream
  request : Option Request
deriving DecidableEq, Repr

namespace Response

/-- A response without headers whose body yields the given elements. -/
def ofElements (status : Http.Status) (elements : List Bytes) : Response :=
  ⟨status, .empty, elements.map .chunk, none⟩

/-- A response without a body. -/
def empty (status : Http.Status) : Response := ⟨status, .empty, [], none⟩

/-- The response as the answer to a request. -/
def withRequest (r : Response) (request : Request) : Response := { r with request := some request }

/-- The first content type, if it can be read as text. -/
def contentType? (r : Response) : Option String :=
  (r.headers.first? .contentType).bind Http.HeaderValue.toText?

/-- The wait that the server asks for, at a given time in seconds since the beginning of 1970. -/
def retryHint? (wallClock : Nat) (r : Response) : Option Http.RetryHint :=
  r.headers.retryHint? wallClock

/-- One header field for diagnostics. -/
def describeField (field : Http.HeaderName × Http.HeaderValue) : String :=
  Text.Quoted.text field.1.text ++ ": " ++ Text.Quoted.headerValue field.2.bytes

/-- A description for diagnostics: everything but the body. -/
def describe (r : Response) : String :=
  "Response \x7b status: " ++ toString r.status.code ++ ", headers: \x7b" ++
    Text.join ", " (r.headers.pairs.map describeField) ++ "\x7d, request: " ++
    (match r.request with
      | some request => "Some(" ++ request.uri.text ++ ")"
      | none => "None") ++ ", .. \x7d"

end Response

end ResilientClient
