/-
Rehearsals of a client: acts that use it as callers do, one after the other or together, and the
report on each, with what was sent and heard meanwhile.
-/
import ResilientClient.Client.Basic
import ResilientClient.Rehearsal.Peers

namespace ResilientClient.Rehearsal

/-- One thing that a caller does. -/
inductive Act where
  | invokeSingle (key : String) (args : List Argument)
  /-- Invokes a method in its declared shape and reads at most `limit` items of a stream. -/
  | invoke (key : String) (args : List Argument) (limit : Option Nat)
  /-- Invokes a method in its declared shape and describes the reply. -/
  | describeReply (key : String) (args : List Argument)
  /-- Reads a stream, after a wait between asking for it and reading it. -/
  | invokeStream (key : String) (args : List Argument) (limit : Option Nat) (delay : Duration)
  /-- Invokes a method for its response and reads at most `limit` items of the body. -/
  | execute (key : String) (args : List Argument) (limit : Option Nat)
  | invokeJson (key : String) (args : List Argument) (decoder : Json.Decoder Json)
  | invokeNdjson (key : String) (args : List Argument) (decoder : Json.Decoder Json)
      (limit : Option Nat)
  | lookUp (key : String)
  | wait (span : Duration)
  /-- Looks at a breaker, which callers can do if they share the breakers with the client. -/
  | inspectBreaker (key : String) (shared : Bool := true)
  | setServers (service : String) (servers : List Server)
  | resolve (service : String)
  /-- Does nothing: what it needs cannot be made. -/
  | refuse (cause : Error)
  /-- Does something for at most the given time. -/
  | limited (limit : Duration) (act : Act)
  | together (acts : List Act)

/-- What came of an act. -/
inductive Report where
  | element (element : Option Bytes)
  | single (element : Option Bytes)
  | stream (items : List (Except Error Bytes)) (ended : Bool)
  | description (text : String)
  | response (response : Response) (items : List (Except Error Bytes)) (ended : Bool)
  | value (value : Option Json)
  | values (values : List (Except Error Json))
  | declared (endpoint : Endpoint)
  | done
  | breaker (state : Option CircuitState) (count : Nat)
  /-- The breakers are the client's own. -/
  | noRegistry
  | server (server : Server)
  | failed (error : Error)
  /-- The method is not declared. -/
  | missing
  /-- The act was cut off. -/
  | cancelled
  | several (reports : List Report)

namespace Act

/-- The report on a result, or on the failure in its place. -/
def reportOn {α : Type} (report : α → Report) : Except Error α → Report
  | .ok a => report a
  | .error e => .failed e

/-- The act of reading a stream. -/
def readStream (stream : Stage Peers (List (Except Error Bytes) × Bool)) : Stage Peers Report :=
  stream.andThen fun (items, ended) => .done (.stream items ended)

/-- The act of reading the body of a response. -/
def readResponse (limit : Option Nat) : Outcome → Stage Peers Report
  | .error e => .done (.failed e)
  | .ok response =>
    (response.body.take limit).andThen fun (items, ended) =>
      .done (.response response items ended)

/-- An act with a method, if it is declared. -/
def withMethod (client : Client Peers) (key : String)
    (act : Method Peers → Stage Peers Report) : Stage Peers Report :=
  match client.method? key with
  | some m => act m
  | none => .done .missing

/-- The act of invoking a method in its declared shape. -/
def readReply (limit : Option Nat) : Except Error (Reply Peers) → Stage Peers Report
  | .error e => .done (.failed e)
  | .ok (.single element) => .done (.single element)
  | .ok (.stream read) => readStream (read limit)

/-- The state of a breaker and the number of all breakers, for callers that share them. -/
def inspect (key : String) (shared : Bool) (w : World Peers) : Report :=
  if shared then .breaker ((w.breakers.get? key).map Breaker.state) w.breakers.size else .noRegistry

mutual
/-- Does what an act says. -/
def perform (client : Client Peers) : Act → Stage Peers Report
  | .invokeSingle key args =>
    (client.invokeSingle key args).andThen fun r => .done (reportOn .element r)
  | .invoke key args limit => (client.invoke key args).andThen (readReply limit)
  | .describeReply key args =>
    (client.invoke key args).andThen fun r =>
      .done (reportOn (fun reply => .description reply.describe) r)
  | .invokeStream key args limit delay =>
    match client.method key with
    | .error e => .done (.failed e)
    | .ok m => (Fiber.sleep delay).andThen fun _ => readStream (m.invokeStream args limit)
  | .execute key args limit =>
    withMethod client key fun m => (m.execute args).andThen (readResponse limit)
  | .invokeJson key args decoder =>
    withMethod client key fun m =>
      (m.invokeJson decoder args).andThen fun r => .done (reportOn .value r)
  | .invokeNdjson key args decoder limit =>
    withMethod client key fun m =>
      (m.invokeNdjson decoder args limit).andThen fun values => .done (.values values)
  | .lookUp key => withMethod client key fun m => .done (.declared m.endpoint)
  | .wait span => (Fiber.sleep span).andThen fun _ => .done .done
  | .inspectBreaker key shared => Fiber.get.andThen fun w => .done (inspect key shared w)
  | .setServers service servers =>
    (Peers.setServers 0 service servers).andThen fun _ => .done .done
  | .resolve service =>
    (Stage.outside (Peers.resolve 0 service)).andThen fun r => .done (reportOn .server r)
  | .refuse cause => .done (.failed cause)
  | .limited limit act =>
    ((perform client act).timeout limit).andThen fun r => .done (r.getD .cancelled)
  | .together acts => (Fiber.all (performEach client acts)).andThen fun rs => .done (.several rs)

/-- What each of several acts says. -/
def performEach (client : Client Peers) : List Act → List (Stage Peers Report)
  | [] => []
  | act :: rest => perform client act :: performEach client rest
end

end Act

/-- An act with its report, what happened during it, and the time at its end. -/
structure Scene where
  report : Report
  sent : List SentRequest
  events : List (String × Event)
  time : Instant

/-- Does one act after the other. -/
def play (client : Client Peers) : List Act → Instant → World Peers → List Scene × World Peers
  | [], _, w => ([], w)
  | act :: rest, t, w =>
    let (report, t', w') := (act.perform client).run t w
    let scene := {
      report
      sent := gained w.outside.own.sent w'.outside.own.sent
      events := World.eventsSince w w'
      time := t' }
    let (scenes, last) := play client rest t' w'
    (scene :: scenes, last)

end ResilientClient.Rehearsal
