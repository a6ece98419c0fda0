/-
The transport over HTTP: which schemes it takes, and how a request goes to the network within the
time limit of an attempt. A request whose scheme is refused leaves its body unopened.
-/
import ResilientClient.Pipeline.Call

namespace ResilientClient

/-- Exchanges a request on the wire for a response. -/
abbrev Network (ε : Type) := WireRequest → Fiber (Outside ε) Outcome

namespace HttpTransport

variable {ε : Type}

/-- The log lines of a transport that is set up with the given options. -/
def startLines (options : TransportOptions) : List TraceLine :=
  (if options.allowInsecureHttp then
    [⟨.warn, "insecure HTTP enabled; use only for testing with mock servers", []⟩] else []) ++
  (if options.followRedirects || options.proxy.isSome then
    [⟨.debug, "HyperTransport ignores follow_redirects and proxy options", []⟩] else [])

/-- Takes the scheme `https`, and `http` if the options allow it. -/
def checkScheme (options : TransportOptions) (scheme : Option String) : Except Error Unit :=
  match scheme with
  | some "https" => .ok ()
  | some "http" =>
    if options.allowInsecureHttp then .ok ()
    else .error (.schemeRefused "http" "plain HTTP requires allow_insecure_http")
  | other => .error (.schemeRefused (other.getD "") "only http and https are supported")

/-- Puts a request into its form on the wire, which opens its body. -/
def openWire (request : Request) : Fiber (Outside ε) (Except Error WireRequest) :=
  .modifyGet fun _ outside =>
    let (wire, opened) := request.toWire outside.opened
    (wire, { outside with opened })

/-- Exchanges a request within a time limit. -/
def exchange (limit : Option Duration) (network : Network ε) (wire : WireRequest) :
    Fiber (Outside ε) Outcome :=
  match limit with
  | none => network wire
  | some limit =>
    ((network wire).timeout limit).andThen fun
      | some outcome => .done outcome
      | none => .done (.error (.timeout limit))

/-- The transport with the given options over a network. -/
def transport (options : TransportOptions) (network : Network ε) : Transport ε := fun request =>
  match checkScheme options request.uri.scheme with
  | .error e => .done (.error e)
  | .ok () =>
    (openWire request).andThen fun
      | .error e => .done (.error e)
      | .ok wire => exchange options.requestTimeout network wire

end HttpTransport

end ResilientClient
