/-
The failures of a client: one constructor per cause, the wording of each, and the classes that
decide on retries, failovers, breakers and fallbacks.
-/
import ResilientClient.Duration.Basic
import ResilientClient.Http.RetryAfter
import ResilientClient.Http.Status

namespace ResilientClient

/-- What is wrong with an expanded URL. -/
inductive UrlFault where
  | unreadable
  | noScheme
  | noAuthority
deriving DecidableEq, Repr

/-- Where an exchange broke off: while connecting or afterwards. -/
inductive ConnectionFault where
  | connect
  | exchange
deriving DecidableEq, Repr

/-- What is wrong with a JSON text: it is malformed, it ends early, or it does not have the
expected shape. -/
inductive JsonFault where
  | malformed
  | truncated
  | mismatched
deriving DecidableEq, Repr

/-- What cannot be written as a form: a value that is no list of pairs, an element that is no pair,
or a field that is no scalar. -/
inductive FormFault where
  | topLevel
  | pair
  | field
deriving DecidableEq, Repr

/-- A failure of a client or of one invocation. -/
inductive Error where
  | invalidUrl (url : String) (fault : UrlFault) (reason : String)
  | schemeRefused (scheme reason : String)
  | tls (cause : String)
  | invalidHeaderName
  | invalidHeaderValue
  | unsupportedReturn (method shape : String)
  | configuration (text : String)
  | bodyConsumed (method : String)
  | transport (fault : ConnectionFault) (cause : String)
  | timeout (limit : Duration)
  | status (method : String) (status : Http.Status) (preview : String)
      (contentType : Option String) (retryAfter : Option Http.RetryHint)
  /-- A handled status with a message of the handler's own. -/
  | decoded (method : String) (status : Http.Status) (retryAfter : Option Http.RetryHint)
      (cause : String)
  /-- A handled status with a failure as its cause. -/
  | decodedFrom (method : String) (status : Http.Status) (retryAfter : Option Http.RetryHint)
      (cause : Error)
  | noInstances (service : String)
  | outOfRetries (attempts : Nat) (last : Error)
  | circuitOpen (breaker : String)
  | executionTimeout (method : String) (limit : Duration)
  | bodyTooLarge (limit actual : Nat)
  | body (cause : String)
  | json (fault : JsonFault)
  | formEncoding (fault : FormFault)
  /-- The 32-bit attempt counter has no room for another attempt. Counting on would abort the task
  where arithmetic is checked, and begin again at zero where it is not; this failure stands for
  both. It is one like any other: an outer retry may go on after it. -/
  | attemptOverflow
deriving DecidableEq, Repr

namespace Error

/-! ## Wording -/

/-- The wording of a form fault. -/
def formText : FormFault → String
  | .topLevel => "top-level serializer supports only maps and structs"
  | .pair => "unsupported pair"
  | .field => "unsupported value"

/-- The wording of a JSON fault. -/
def jsonText : JsonFault → String
  | .malformed => "malformed text"
  | .truncated => "unexpected end of text"
  | .mismatched => "unexpected shape"

/-- The message of a failure. -/
def message : Error → String
  | .invalidUrl url _ reason => "Invalid URL '" ++ url ++ "': " ++ reason
  | .schemeRefused scheme reason => "URL scheme '" ++ scheme ++ "' not allowed: " ++ reason
  | .tls cause => "TLS configuration failed: " ++ cause
  | .invalidHeaderName => "Invalid header name: invalid HTTP header name"
  | .invalidHeaderValue => "Invalid header value: failed to parse header value"
  | .unsupportedReturn method shape =>
    "Method " ++ method ++ " declares unsupported return type '" ++ shape ++ "'"
  | .configuration text => "Invalid client configuration: " ++ text
  | .bodyConsumed method =>
    "Request body of " ++ method ++ " is one-shot and was already consumed"
  | .transport _ cause => "Transport error: " ++ cause
  | .timeout limit => "Request attempt timed out after " ++ limit.text
  | .status method code preview _ _ => method ++ " failed with HTTP " ++ code.text ++ ": " ++ preview
  | .decoded method code _ cause => method ++ " failed with HTTP " ++ code.text ++ ": " ++ cause
  | .decodedFrom method code _ cause =>
    method ++ " failed with HTTP " ++ code.text ++ ": " ++ cause.message
  | .noInstances service => "No instances available for service '" ++ service ++ "'"
  | .outOfRetries attempts last =>
    "Out of retries after " ++ toString attempts ++ " attempts: " ++ last.message
  | .circuitOpen breaker => "Circuit breaker open for " ++ breaker
  | .executionTimeout method limit => "Execution of " ++ method ++ " timed out after " ++ limit.text
  | .bodyTooLarge limit actual =>
    "Response body too large: limit " ++ toString limit ++ " bytes, got " ++ toString actual ++
      " bytes"
  | .body cause => "Response body error: " ++ cause
  | .json fault => "JSON parsing failed: " ++ jsonText fault
  | .formEncoding fault => "Form encoding failed: " ++ formText fault
  | .attemptOverflow => "Attempt counter overflow"

/-- The name of the kind of a failure. -/
def kind : Error → String
  | .invalidUrl .. => "InvalidUri"
  | .schemeRefused .. => "InvalidScheme"
  | .tls .. => "Tls"
  | .invalidHeaderName => "InvalidHeaderName"
  | .invalidHeaderValue => "InvalidHeaderValue"
  | .unsupportedReturn .. => "UnsupportedReturnShape"
  | .configuration .. => "Configuration"
  | .bodyConsumed .. => "BodyConsumed"
  | .transport .. => "Transport"
  | .timeout .. => "Timeout"
  | .status .. => "Status"
  | .decoded .. => "Decoded"
  | .decodedFrom .. => "Decoded"
  | .noInstances .. => "NoInstances"
  | .outOfRetries .. => "OutOfRetries"
  | .circuitOpen .. => "CircuitOpen"
  | .executionTimeout .. => "ExecutionTimeout"
  | .bodyTooLarge .. => "BodyTooLarge"
  | .body .. => "Body"
  | .json .. => "Json"
  | .formEncoding .. => "FormEncode"
  | .attemptOverflow => "AttemptOverflow"

/-! ## Causes -/

/-- The failure behind the wrappers of exhausted retries. -/
def rootCause : Error → Error
  | .outOfRetries _ last => last.rootCause
  | e => e

/-- The kinds of the causes below a failure, from the nearest on; a cause that is no failure of a
client is `opaque`. -/
def causes : Error → List String
  | .outOfRetries _ last => last.kind :: last.causes
  | .decodedFrom _ _ _ cause => cause.kind :: cause.causes
  | .decoded .. | .transport .. | .tls .. | .body .. | .json .. | .formEncoding ..
  | .invalidHeaderName | .invalidHeaderValue => ["opaque"]
  | _ => []

/-- The failure of `attempts` attempts that ended in `last`; a wrapper around `last` is removed. -/
def exhausted (attempts : Nat) : Error → Error
  | .outOfRetries _ last => .outOfRetries attempts last
  | last => .outOfRetries attempts last

/-! ## Classes -/

/-- The failures of building a request or a client. -/
def isConstruction : Error → Bool
  | .invalidUrl .. | .schemeRefused .. | .tls .. | .invalidHeaderName | .invalidHeaderValue
  | .unsupportedReturn .. | .configuration .. | .bodyConsumed .. | .formEncoding .. => true
  | _ => false

/-- The status of the response behind a failure. -/
def status? (e : Error) : Option Http.Status :=
  match e.rootCause with
  | .status _ s _ _ _ => some s
  | .decoded _ s _ _ => some s
  | .decodedFrom _ s _ _ => some s
  | _ => none

/-- The server found fault with the request: a 4xx status other than 408 and 429. -/
def isClientRequestError (e : Error) : Bool :=
  match e.status? with
  | some s => s.isClientError && s != .requestTimeout && s != .tooManyRequests
  | none => false

/-- An open breaker is behind the failure. -/
def isCircuitOpen (e : Error) : Bool :=
  match e.rootCause with
  | .circuitOpen _ => true
  | _ => false

/-- The response body was larger than the limit. -/
def isBodyTooLarge : Error → Bool
  | .bodyTooLarge .. => true
  | _ => false

/-- The wait that the server asked for. -/
def retryHint? (e : Error) : Option Http.RetryHint :=
  match e.rootCause with
  | .status _ _ _ _ hint => hint
  | .decoded _ _ hint _ => hint
  | .decodedFrom _ _ hint _ => hint
  | _ => none

end Error

end ResilientClient
