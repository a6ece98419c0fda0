/-
One attempt: the request is expanded and goes through the interceptors, it is sent, and the
response is classified. The body of a method with a single result is read here, so that a failure
to read it is a failure of the attempt.
-/
import ResilientClient.Expansion
import ResilientClient.Interceptor
import ResilientClient.Pipeline.Call
import ResilientClient.StatusHandler

namespace ResilientClient

/-- What the methods of one client share. -/
structure Exchange (ε : Type) where
  transport : Transport ε
  interceptors : List Interceptor
  listeners : List Listener
  statusHandler : StatusHandler (Outside ε)
  /-- Whether a 404 counts as an empty answer. -/
  decode404 : Bool
  maxBodySize : Nat

namespace Pipeline

variable {ε : Type}

/-- The base URL of an attempt: that of the chosen instance, or that of the target. -/
def baseUrl (call : Call) : Except Error String :=
  match call.server, call.target with
  | some server, _ => .ok server.baseUrl
  | none, .url base => .ok base
  | none, .service name =>
    .error (.configuration (call.method ++ ": no server selected for service '" ++ name ++ "'"))

/-- The request of an attempt. -/
def prepare (interceptors : List Interceptor) (call : Call) : Except Error Request :=
  match baseUrl call with
  | .error e => .error e
  | .ok base =>
    match call.endpoint.expand call.args base with
    | .error e => .error e
    | .ok request => request.intercept interceptors

/-- Sends a request, telling the listeners before and after. -/
def send (exchange : Exchange ε) (request : Request) : Stage ε Outcome :=
  (Stage.tell exchange.listeners (.requestStarted request)).andThen fun _ =>
    (Stage.note [.sent request]).andThen fun _ =>
      Fiber.now.andThen fun started =>
        (Stage.outside (exchange.transport request)).andThen fun
          | .error e =>
            (Stage.note [.answered request (.error e)]).andThen fun _ => .done (.error e)
          | .ok response =>
            (Stage.note [.answered request (.ok response.status)]).andThen fun _ =>
              Fiber.now.andThen fun ended =>
                (Stage.tell exchange.listeners
                  (.responseReceived request response.status response.headers
                    (ended - started))).andThen fun _ =>
                  .done (.ok (response.withRequest request))

/-- The response with its body read: at most one element. -/
def aggregate (limit : Nat) (response : Response) : Stage ε Outcome :=
  (response.body.readAll limit).andThen fun
    | .error e => .done (.error e)
    | .ok bytes =>
      .done (.ok { response with body := if bytes.isEmpty then [] else [.chunk bytes] })

/-- What a response means for the attempt. -/
def classify (exchange : Exchange ε) (call : Call) (response : Response) : Stage ε Outcome :=
  if exchange.decode404 ∧ response.status = .notFound then .done (.ok (.empty .notFound))
  else if exchange.statusHandler.handles response.status then
    (Stage.outside (exchange.statusHandler.decode call.method response)).andThen fun e =>
      .done (.error e)
  else if call.endpoint.returns = .stream then .done (.ok response)
  else aggregate exchange.maxBodySize response

/-- The service that makes one attempt. -/
def executing (exchange : Exchange ε) : Service ε := fun call =>
  match prepare exchange.interceptors call with
  | .error e => .done (.error e)
  | .ok request =>
    (send exchange request).andThen fun
      | .error e => .done (.error e)
      | .ok response => classify exchange call response

end Pipeline

end ResilientClient
