/-
Configurations as JSON: every configuration has one written value, and a value is read with the
defaults in place of what it leaves out, without unknown or repeated names. A record may also be
given as the list of its fields in order. Spans of time are written as people write them.
-/
import ResilientClient.Config.Basic
import ResilientClient.Duration.Human
import ResilientClient.Json.Value

namespace ResilientClient

/-! ## Scalars -/

namespace Json

def bool? : Json → Option Bool
  | .bool b => some b
  | _ => none

def string? : Json → Option String
  | .string s => some s
  | _ => none

/-- An integer from zero to a limit. -/
def natUpTo? (limit : Nat) : Json → Option Nat
  | .integer n => if 0 ≤ n ∧ n.toNat ≤ limit then some n.toNat else none
  | _ => none

/-- A number below `2 ^ 32`. -/
def counter? : Json → Option Nat := natUpTo? counterMax

/-- A number below `2 ^ 32`, in 32 bits. -/
def narrow? (v : Json) : Option UInt32 := (counter? v).map UInt32.ofNat

/-- A number below `2 ^ 64`. -/
def size? : Json → Option Nat := natUpTo? (twoTo 64 - 1)

/-- A number as a word of the binary format. -/
def binary64? : Json → Option Binary64
  | .integer n => some (Binary64.ofRatio (decide (n < 0)) n.natAbs 1)
  | .float x => some x
  | _ => none

/-- A span of time. -/
def duration? (v : Json) : Option Duration := v.string?.bind Duration.Human.parse?

/-- What `read` makes of a value, and nothing of `null`. -/
def nullable? {α : Type} (read : Json → Option α) : Json → Option (Option α)
  | .null => some none
  | v => (read v).map some

/-- The written value, or `null`. -/
def ofOption {α : Type} (write : α → Json) : Option α → Json
  | none => .null
  | some a => write a

def ofNat (n : Nat) : Json := .integer n

def ofDuration (d : Duration) : Json := .string (Duration.Human.render d)

/-- A word of the binary format as a number, or `null` if it is not finite. -/
def ofBinary64 (x : Binary64) : Json := if x.isFinite then .float x else .null

/-! ## Records and words -/

/-- The fields that a value gives to a record with the given names: an object with no other names
and none repeated, or a list no longer than the names. -/
def fields? (names : List String) : Json → Option (List (String × Json))
  | .object members =>
    let given := members.map Prod.fst
    if given.all names.contains && decide given.Nodup then some members else none
  | .array items => if items.length ≤ names.length then some (names.zip items) else none
  | _ => none

/-- What `read` makes of the field of a name, and the default if it is left out. -/
def fieldOr {α : Type} (fields : List (String × Json)) (name : String) (default : α)
    (read : Json → Option α) : Option α :=
  match fields.find? fun field => field.1 == name with
  | some field => read field.2
  | none => some default

/-- One of several words, given as a string or as the only name of an object with `null`. -/
def word? {α : Type} (words : List (String × α)) : Json → Option α
  | .string s => (words.find? fun word => word.1 == s).map Prod.snd
  | .object [(s, .null)] => (words.find? fun word => word.1 == s).map Prod.snd
  | _ => none

end Json

/-! ## Backoff and retries -/

namespace ExponentialBackoff

def fieldNames : List String := ["initial", "max", "multiplier", "jitter"]

/-- The fields of the written value. -/
def members (b : ExponentialBackoff) : List (String × Json) :=
  [("initial", .ofDuration b.initial), ("max", .ofDuration b.max),
   ("multiplier", .ofBinary64 b.multiplier), ("jitter", .bool b.jitter)]

def toJson (b : ExponentialBackoff) : Json := .object b.members

def ofJson? (v : Json) : Option ExponentialBackoff := do
  let fields ← v.fields? fieldNames
  return {
    initial := ← Json.fieldOr fields "initial" default.initial Json.duration?
    max := ← Json.fieldOr fields "max" default.max Json.duration?
    multiplier := ← Json.fieldOr fields "multiplier" default.multiplier Json.binary64?
    jitter := ← Json.fieldOr fields "jitter" default.jitter Json.bool? }

end ExponentialBackoff

namespace Backoff

/-- The written value: an object whose `type` names the case, with the fields of the case. -/
def toJson : Backoff → Json
  | .none => .object [("type", .string "none")]
  | .fixed delay => .object [("type", .string "fixed"), ("delay", .ofDuration delay)]
  | .exponential growth => .object (("type", .string "exponential") :: growth.members)

/-- The case of a given name, with the rest of its value. -/
def ofTagged? (tag : String) (rest : Json) : Option Backoff :=
  if tag = "none" then
    match rest with
    | .array (_ :: _) => .none
    | _ => some .none
  else if tag = "fixed" then do
    let fields ← rest.fields? ["delay"]
    let (_, v) ← fields.head?
    return .fixed (← v.duration?)
  else if tag = "exponential" then (ExponentialBackoff.ofJson? rest).map .exponential
  else .none

/-- Reads the name of the case from the member `type`, which has to be there once, or from the
first element of a list; what else stands beside `none` in an object is not looked at. -/
def ofJson? : Json → Option Backoff
  | .object members =>
    match members.filter fun member => member.1 == "type" with
    | [(_, .string tag)] =>
      ofTagged? tag (.object (members.filter fun member => member.1 != "type"))
    | _ => .none
  | .array (.string tag :: rest) => ofTagged? tag (.array rest)
  | _ => .none

end Backoff

namespace RetryConfig

def fieldNames : List String := ["max_retries", "backoff", "retry_client_errors"]

def toJson (c : RetryConfig) : Json :=
  .object [("max_retries", .ofNat c.maxRetries), ("backoff", c.backoff.toJson),
    ("retry_client_errors", .bool c.retryClientErrors)]

def ofJson? (v : Json) : Option RetryConfig := do
  let fields ← v.fields? fieldNames
  return {
    maxRetries := ← Json.fieldOr fields "max_retries" default.maxRetries Json.counter?
    backoff := ← Json.fieldOr fields "backoff" default.backoff Backoff.ofJson?
    retryClientErrors :=
      ← Json.fieldOr fields "retry_client_errors" default.retryClientErrors Json.bool? }

end RetryConfig

/-! ## Balancing and breaking -/

namespace BalancerConfig

def fieldNames : List String := ["max_retries_on_same", "max_retries_on_next"]

def toJson (c : BalancerConfig) : Json :=
  .object [("max_retries_on_same", .ofNat c.retriesOnSame),
    ("max_retries_on_next", .ofNat c.retriesOnNext)]

def ofJson? (v : Json) : Option BalancerConfig := do
  let fields ← v.fields? fieldNames
  return {
    retriesOnSame := ← Json.fieldOr fields "max_retries_on_same" default.retriesOnSame Json.counter?
    retriesOnNext :=
      ← Json.fieldOr fields "max_retries_on_next" default.retriesOnNext Json.counter? }

end BalancerConfig

namespace BreakerConfig

def fieldNames : List String :=
  ["failure_threshold", "minimum_calls", "rolling_window", "sleep_window", "half_open_max_calls",
   "execution_timeout", "uniquifier", "key_by_target"]

def toJson (c : BreakerConfig) : Json :=
  .object [("failure_threshold", .ofNat c.failureThreshold.toNat),
    ("minimum_calls", .ofNat c.minimumCalls.toNat),
    ("rolling_window", .ofDuration c.rollingWindow),
    ("sleep_window", .ofDuration c.sleepWindow),
    ("half_open_max_calls", .ofNat c.halfOpenMaxCalls.toNat),
    ("execution_timeout", .ofOption .ofDuration c.executionTimeout),
    ("uniquifier", .ofOption .string c.uniquifier),
    ("key_by_target", .bool c.keyByTarget)]

def ofJson? (v : Json) : Option BreakerConfig := do
  let fields ← v.fields? fieldNames
  return {
    failureThreshold :=
      ← Json.fieldOr fields "failure_threshold" default.failureThreshold Json.narrow?
    minimumCalls := ← Json.fieldOr fields "minimum_calls" default.minimumCalls Json.narrow?
    rollingWindow := ← Json.fieldOr fields "rolling_window" default.rollingWindow Json.duration?
    sleepWindow := ← Json.fieldOr fields "sleep_window" default.sleepWindow Json.duration?
    halfOpenMaxCalls :=
      ← Json.fieldOr fields "half_open_max_calls" default.halfOpenMaxCalls Json.narrow?
    executionTimeout :=
      ← Json.fieldOr fields "execution_timeout" default.executionTimeout
        (Json.nullable? Json.duration?)
    uniquifier :=
      ← Json.fieldOr fields "uniquifier" default.uniquifier (Json.nullable? Json.string?)
    keyByTarget := ← Json.fieldOr fields "key_by_target" default.keyByTarget Json.bool? }

end BreakerConfig

/-! ## Transport -/

namespace TlsRoots

/-- The word for each source of certificates. -/
def words : List (String × TlsRoots) := [("web_pki", .webPki), ("native", .native)]

def toJson : TlsRoots → Json
  | .webPki => .string "web_pki"
  | .native => .string "native"

def ofJson? : Json → Option TlsRoots := Json.word? words

end TlsRoots

namespace TransportOptions

def fieldNames : List String :=
  ["connect_timeout", "request_timeout", "compression", "follow_redirects", "proxy",
   "pool_idle_timeout", "pool_max_idle_per_host", "allow_insecure_http", "tls_roots"]

def toJson (o : TransportOptions) : Json :=
  .object [("connect_timeout", .ofDuration o.connectTimeout),
    ("request_timeout", .ofOption .ofDuration o.requestTimeout),
    ("compression", .bool o.compression),
    ("follow_redirects", .bool o.followRedirects),
    ("proxy", .ofOption .string o.proxy),
    ("pool_idle_timeout", .ofOption .ofDuration o.poolIdleTimeout),
    ("pool_max_idle_per_host", .ofNat o.poolMaxIdlePerHost),
    ("allow_insecure_http", .bool o.allowInsecureHttp),
    ("tls_roots", o.tlsRoots.toJson)]

def ofJson? (v : Json) : Option TransportOptions := do
  let fields ← v.fields? fieldNames
  return {
    connectTimeout := ← Json.fieldOr fields "connect_timeout" default.connectTimeout Json.duration?
    requestTimeout :=
      ← Json.fieldOr fields "request_timeout" default.requestTimeout
        (Json.nullable? Json.duration?)
    compression := ← Json.fieldOr fields "compression" default.compression Json.bool?
    followRedirects := ← Json.fieldOr fields "follow_redirects" default.followRedirects Json.bool?
    proxy := ← Json.fieldOr fields "proxy" default.proxy (Json.nullable? Json.string?)
    poolIdleTimeout :=
      ← Json.fieldOr fields "pool_idle_timeout" default.poolIdleTimeout
        (Json.nullable? Json.duration?)
    poolMaxIdlePerHost :=
      ← Json.fieldOr fields "pool_max_idle_per_host" default.poolMaxIdlePerHost Json.size?
    allowInsecureHttp :=
      ← Json.fieldOr fields "allow_insecure_http" default.allowInsecureHttp Json.bool?
    tlsRoots := ← Json.fieldOr fields "tls_roots" default.tlsRoots TlsRoots.ofJson? }

end TransportOptions

/-! ## Clients -/

namespace LogLevel

/-- The word for each level. -/
def words : List (String × LogLevel) :=
  [("none", .none), ("basic", .basic), ("headers", .headers), ("full", .full)]

/-- The word for a level. -/
def word : LogLevel → String
  | .none => "none"
  | .basic => "basic"
  | .headers => "headers"
  | .full => "full"

def toJson (level : LogLevel) : Json := .string level.word

def ofJson? : Json → Option LogLevel := Json.word? words

end LogLevel

namespace ClientConfig

def fieldNames : List String :=
  ["log_level", "decode404", "max_body_size", "user_agent", "retry", "load_balancer",
   "circuit_breaker", "transport"]

def toJson (c : ClientConfig) : Json :=
  .object [("log_level", c.logLevel.toJson),
    ("decode404", .bool c.decode404),
    ("max_body_size", .ofNat c.maxBodySize),
    ("user_agent", .string c.userAgent),
    ("retry", .ofOption RetryConfig.toJson c.retry),
    ("load_balancer", .ofOption BalancerConfig.toJson c.balancer),
    ("circuit_breaker", .ofOption BreakerConfig.toJson c.breaker),
    ("transport", c.transport.toJson)]

def ofJson? (v : Json) : Option ClientConfig := do
  let fields ← v.fields? fieldNames
  return {
    logLevel := ← Json.fieldOr fields "log_level" default.logLevel LogLevel.ofJson?
    decode404 := ← Json.fieldOr fields "decode404" default.decode404 Json.bool?
    maxBodySize := ← Json.fieldOr fields "max_body_size" default.maxBodySize Json.size?
    userAgent := ← Json.fieldOr fields "user_agent" default.userAgent Json.string?
    retry := ← Json.fieldOr fields "retry" default.retry (Json.nullable? RetryConfig.ofJson?)
    balancer :=
      ← Json.fieldOr fields "load_balancer" default.balancer
        (Json.nullable? BalancerConfig.ofJson?)
    breaker :=
      ← Json.fieldOr fields "circuit_breaker" default.breaker
        (Json.nullable? BreakerConfig.ofJson?)
    transport := ← Json.fieldOr fields "transport" default.transport TransportOptions.ofJson? }

end ClientConfig

end ResilientClient
