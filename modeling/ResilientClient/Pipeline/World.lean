/-
The state that the invocations of a client share: what its collaborators keep, the breakers, and
the timeline of what happened, in order.
-/
import ResilientClient.Breaker.Registry
import ResilientClient.Listener
import ResilientClient.Target

namespace ResilientClient

/-- One thing that happened. -/
inductive Occurrence where
  /-- A listener was told an event. -/
  | heard (listener : String) (event : Event)
  /-- A log line was written. -/
  | logged (line : TraceLine)
  /-- An instance was looked up for a service. -/
  | resolved (service : String) (outcome : Except Error Server)
  /-- The breaker of a key admitted a call. -/
  | admitted (permit : Permit)
  /-- The breaker of a key rejected a call. -/
  | rejected (key : String)
  /-- An admitted call was reported. -/
  | reported (permit : Permit) (verdict : Verdict)
  /-- The fallback of a method was called for a failure. -/
  | recovered (method : String) (cause : Error)
  /-- A request was handed to the transport. -/
  | sent (request : Request)
  /-- The transport answered a request with a response of that status or failed. -/
  | answered (request : Request) (outcome : Except Error Http.Status)
  /-- A client that is built asked for the breaker of a key. -/
  | askedForBreaker (key : String)
  /-- A client that is built asked for the fallback of a method. -/
  | askedForFallback (method : String)

/-- The event that a recording listener kept, with its name. -/
def Occurrence.heard? : Occurrence → Option (String × Event)
  | .heard name event => some (name, event)
  | _ => none

/-- The log line that was written. -/
def Occurrence.logged? : Occurrence → Option TraceLine
  | .logged line => some line
  | _ => none

/-- The request that was handed to the transport. -/
def Occurrence.sent? : Occurrence → Option Request
  | .sent request => some request
  | _ => none

/-- What a list that grows at its front has gained, the oldest first. -/
def gained {α : Type} (before after : List α) : List α :=
  (after.take (after.length - before.length)).reverse

theorem gained_append {α : Type} (front before : List α) :
    gained before (front ++ before) = front.reverse := by
  simp [gained]

/-- What the collaborators of a client keep: the one-shot bodies that have been opened, and a state
of their own. -/
structure Outside (ε : Type) where
  opened : OpenedBodies
  own : ε

/-- The state shared by invocations. -/
structure World (ε : Type) where
  outside : Outside ε
  /-- The breakers of all clients: there is one registry. -/
  breakers : BreakerRegistry
  /-- What happened, the latest first. -/
  past : List Occurrence

/-- A part of an invocation. -/
abbrev Stage (ε α : Type) := Fiber (World ε) α

namespace World

variable {ε : Type}

/-- What happened, in order. -/
def timeline (w : World ε) : List Occurrence := w.past.reverse

/-- Adds what happened to the timeline. -/
def note (w : World ε) (occurrences : List Occurrence) : World ε :=
  { w with past := occurrences.reverse ++ w.past }

@[simp] theorem timeline_note (w : World ε) (occurrences : List Occurrence) :
    (w.note occurrences).timeline = w.timeline ++ occurrences := by
  simp [timeline, note]

/-- What a listener does with an event. -/
def heardBy (event : Event) : Listener → List Occurrence
  | .recorder name => [.heard name event]
  | .silent => []
  | .logger level => (Listener.linesOf level event).map .logged

/-- What all listeners do with an event. -/
def told (listeners : List Listener) (event : Event) : List Occurrence :=
  listeners.flatMap (heardBy event)

/-- The events that recording listeners kept, with their names. -/
def events (w : World ε) : List (String × Event) := w.timeline.filterMap Occurrence.heard?

/-- The log lines. -/
def lines (w : World ε) : List TraceLine := w.timeline.filterMap Occurrence.logged?

/-- The requests handed to the transport. -/
def sent (w : World ε) : List Request := w.timeline.filterMap Occurrence.sent?

/-- The events that recording listeners kept after an earlier state, with their names. -/
def eventsSince (earlier w : World ε) : List (String × Event) :=
  (gained earlier.past w.past).filterMap Occurrence.heard?

theorem eventsSince_note (w : World ε) (occurrences : List Occurrence) :
    eventsSince w (w.note occurrences) = occurrences.filterMap Occurrence.heard? := by
  simp [eventsSince, note, gained_append]

end World

namespace Stage

variable {ε α : Type}

/-- Adds what happened to the timeline. -/
def note (occurrences : List Occurrence) : Stage ε Unit :=
  Fiber.modify (World.note · occurrences)

/-- Writes a log line. -/
def log (line : TraceLine) : Stage ε Unit := note [.logged line]

/-- Tells all listeners an event. -/
def tell (listeners : List Listener) (event : Event) : Stage ε Unit :=
  note (World.told listeners event)

/-- Lets a collaborator work on its own state. -/
def outside (work : Fiber (Outside ε) α) : Stage ε α :=
  work.zoom World.outside fun outside w => { w with outside }

end Stage

end ResilientClient
