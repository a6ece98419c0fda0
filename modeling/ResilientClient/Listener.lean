/-
Listeners: what the stages of an invocation tell about it, and who is told, in the order in which
the listeners were registered.
-/
import ResilientClient.Response
import ResilientClient.Trace

namespace ResilientClient

/-- What is told about an invocation; spans of time are in nanoseconds. -/
inductive Event where
  | requestStarted (request : Request)
  | responseReceived (request : Request) (status : Http.Status) (headers : Http.Headers)
      (elapsed : Nat)
  | bodyElement (method : String) (element : Bytes)
  | errorReceived (method : String) (error : Error) (elapsed : Nat)
  | retrying (method : String) (attempt : Nat) (error : Error) (delay : Duration)
deriving DecidableEq, Repr

/-- Who is told. -/
inductive Listener where
  /-- Keeps every event under its name. -/
  | recorder (name : String)
  /-- Takes no notice. -/
  | silent
  /-- Writes log lines, as many as the level asks for. -/
  | logger (level : LogLevel)
deriving DecidableEq, Repr

namespace Listener

/-- The whole milliseconds of a span in nanoseconds, in decimal. -/
def millisText (nanos : Nat) : String := toString (nanos / 1000000)

/-- What stands for headers in a log line. -/
def headersText : String := "<headers>"

/-- The size of a body in a log line. -/
def sizeText : Option Nat → String
  | some n => "Some(" ++ toString n ++ ")"
  | none => "None"

/-- Headers are logged. -/
def logsHeaders (level : LogLevel) : Bool := LogLevel.headers.rank ≤ level.rank

/-- The log lines of an event at a level. -/
def linesOf (level : LogLevel) (event : Event) : List TraceLine :=
  if level = .none then []
  else
    match event with
    | .requestStarted request =>
      [⟨.debug, "Request started",
        [("method_key", request.method), ("method", request.verb), ("uri", request.uri.text)] ++
          if logsHeaders level then
            [("headers", headersText), ("body_len", sizeText request.body.size?)]
          else []⟩]
    | .responseReceived request status _ elapsed =>
      [⟨.debug, "Response received",
        [("method_key", request.method), ("status", toString status.code),
          ("elapsed_ms", millisText elapsed)] ++
          if logsHeaders level then [("headers", headersText)] else []⟩]
    | .bodyElement method element =>
      if level = .full then
        [⟨.trace, "Body element received",
          [("method_key", method), ("len", toString element.length)]⟩]
      else []
    | .errorReceived method error elapsed =>
      [⟨.debug, "Invocation failed",
        [("method_key", method), ("error", error.message), ("elapsed_ms", millisText elapsed)]⟩]
    | .retrying method attempt error delay =>
      [⟨.debug, "Retrying invocation",
        [("method_key", method), ("retry", toString attempt), ("error", error.message),
          ("backoff_ms", toString delay.millis)]⟩]

end Listener

end ResilientClient
