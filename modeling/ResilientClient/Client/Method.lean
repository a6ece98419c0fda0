/-
The methods of a client: each sends a call through its pipeline and hands the result over in the
shape that the caller asks for. The listeners are told of every element that is handed over and of
the failure that ends an invocation.
-/
import ResilientClient.Ndjson
import ResilientClient.Pipeline.Call

namespace ResilientClient

/-- What an invocation in the declared shape gives. -/
inductive Reply (ε : Type) where
  /-- At most one element. -/
  | single (element : Option Bytes)
  /-- A stream that has not been started: reads at most the given number of items. -/
  | stream (read : Option Nat → Stage ε (List (Except Error Bytes) × Bool))

/-- A description for diagnostics. -/
def Reply.describe {ε : Type} : Reply ε → String
  | .single (some element) => "Single(Some(" ++ Text.Quoted.bytes element ++ "))"
  | .single none => "Single(None)"
  | .stream _ => "Stream(..)"

/-- A declared method with its pipeline. -/
structure Method (ε : Type) where
  endpoint : Endpoint
  target : Target
  service : Service ε
  listeners : List Listener
  maxBodySize : Nat

namespace Method

variable {ε : Type}

def key (m : Method ε) : String := m.endpoint.key

/-- Sends a call through the pipeline. -/
def dispatch (m : Method ε) (args : List Argument) : Stage ε Outcome :=
  m.service (.start m.endpoint args m.target)

/-- Tells the listeners the failure of an invocation that began at an instant. -/
def tellFailure (m : Method ε) (started : Instant) (e : Error) : Stage ε Unit :=
  Fiber.now.andThen fun t => Stage.tell m.listeners (.errorReceived m.key e (t - started))

/-- Tells the listeners an element that is handed over. -/
def tellElement (m : Method ε) (element : Bytes) : Stage ε Unit :=
  Stage.tell m.listeners (.bodyElement m.key element)

/-- An invocation whose failure the listeners are told. -/
def observed {α : Type} (m : Method ε) (work : Stage ε (Except Error α)) :
    Stage ε (Except Error α) :=
  Fiber.now.andThen fun started =>
    work.andThen fun
      | .ok a => .done (.ok a)
      | .error e => (m.tellFailure started e).andThen fun _ => .done (.error e)

/-! ## Responses and single elements -/

/-- Invokes the method for its response. -/
def execute (m : Method ε) (args : List Argument) : Stage ε Outcome :=
  m.observed (m.dispatch args)

/-- The single element of a response; an empty body has none. -/
def element (m : Method ε) (response : Response) : Stage ε (Except Error (Option Bytes)) :=
  (response.body.readAll m.maxBodySize).andThen fun
    | .error e => .done (.error e)
    | .ok bytes =>
      if bytes.isEmpty then .done (.ok none)
      else (m.tellElement bytes).andThen fun _ => .done (.ok (some bytes))

/-- Invokes the method for a single element. -/
def invokeSingle (m : Method ε) (args : List Argument) :
    Stage ε (Except Error (Option Bytes)) :=
  m.observed <| (m.dispatch args).andThen fun
    | .error e => .done (.error e)
    | .ok response => m.element response

/-- Invokes the method for a single JSON value. -/
def invokeJson {α : Type} (m : Method ε) (decoder : Json.Decoder α) (args : List Argument) :
    Stage ε (Except Error (Option α)) :=
  (m.invokeSingle args).andThen fun
    | .error e => .done (.error e)
    | .ok none => .done (.ok none)
    | .ok (some bytes) => .done ((Ndjson.decode decoder bytes).map some)

/-! ## Streams -/

/-- The items that follow a dispatched call: the body of the response, or the failure. -/
def itemsOf : Outcome → BodyStream
  | .ok response => response.body
  | .error e => [.failure e]

/-- Hands over the items of a stream, at most `limit` of them if one is given; a failure ends it.
The flag says that the end was reached. -/
def deliver (m : Method ε) (started : Instant) : Option Nat → BodyStream →
    Stage ε (List (Except Error Bytes) × Bool)
  | some 0, _ => .done ([], false)
  | _, [] => .done ([], true)
  | limit, .pause d :: rest => (Fiber.sleep d).andThen fun _ => m.deliver started limit rest
  | limit, .chunk bytes :: rest =>
    (m.tellElement bytes).andThen fun _ =>
      (m.deliver started (limit.map (· - 1)) rest).andThen fun p => .done (.ok bytes :: p.1, p.2)
  | limit, .failure e :: _ =>
    (m.tellFailure started e).andThen fun _ => .done ([.error e], decide (limit ≠ some 1))

/-- Starts the method when the first item is wanted and goes on with its items. -/
def startStream {α : Type} (m : Method ε) (args : List Argument)
    (deliver : Instant → BodyStream → Stage ε α) : Stage ε α :=
  Fiber.now.andThen fun started =>
    (m.dispatch args).andThen fun outcome => deliver started (itemsOf outcome)

/-- Invokes the method for a stream of which at most `limit` items are read, if a limit is given;
without a wanted item nothing is done. -/
def invokeStream (m : Method ε) (args : List Argument) (limit : Option Nat) :
    Stage ε (List (Except Error Bytes) × Bool) :=
  if limit = some 0 then .done ([], false)
  else m.startStream args fun started => m.deliver started limit

/-- The first `limit` of some values, and what is left of the limit. -/
def takeUpTo {α : Type} (limit : Option Nat) (values : List α) : List α × Option Nat :=
  match limit with
  | none => (values, none)
  | some n => (values.take n, some (n - values.length))

/-- Hands over the JSON values in the lines of a stream behind an unfinished line, which is held in
reverse, at most `limit` of them if one is given. -/
def deliverLines {α : Type} (m : Method ε) (decoder : Json.Decoder α) (started : Instant)
    (line : Bytes) : Option Nat → BodyStream → Stage ε (List (Except Error α))
  | some 0, _ => .done []
  | limit, [] => .done (takeUpTo limit (Ndjson.readBehind decoder line [])).1
  | limit, .pause d :: rest =>
    (Fiber.sleep d).andThen fun _ => m.deliverLines decoder started line limit rest
  | limit, .chunk bytes :: rest =>
    (m.tellElement bytes).andThen fun _ =>
      let (lines, line) := Ndjson.split line bytes
      let (values, left) :=
        takeUpTo limit ((Ndjson.significant lines).map (Ndjson.decode decoder))
      (m.deliverLines decoder started line left rest).andThen fun later => .done (values ++ later)
  | _, .failure e :: _ => (m.tellFailure started e).andThen fun _ => .done [.error e]

/-- Invokes the method for the JSON values in the lines of a stream, of which at most `limit` are
read. -/
def invokeNdjson {α : Type} (m : Method ε) (decoder : Json.Decoder α) (args : List Argument)
    (limit : Option Nat) : Stage ε (List (Except Error α)) :=
  if limit = some 0 then .done []
  else m.startStream args fun started => m.deliverLines decoder started [] limit

/-! ## The declared shape -/

/-- Invokes the method in its declared shape; a stream is not started yet. -/
def invoke (m : Method ε) (args : List Argument) : Stage ε (Except Error (Reply ε)) :=
  match m.endpoint.returns with
  | .stream => .done (.ok (.stream (m.invokeStream args)))
  | _ => (m.invokeSingle args).andThen fun outcome => .done (outcome.map .single)

end Method

end ResilientClient
