/-
The configuration of a client, with its defaults and its presets.
-/
import ResilientClient.Binary64.Basic
import ResilientClient.Duration.Basic

namespace ResilientClient

/-- The largest 32-bit number, the limit of every budget and every counter of attempts. -/
def counterMax : Nat := twoTo 32 - 1

/-- The `User-Agent` of requests that bring none of their own. -/
def defaultUserAgent : String := "modkit-feign/0.2.8"

/-- The default limit of an aggregated body: 10 MiB. -/
def defaultMaxBodySize : Nat := 10485760

/-- The most bytes of an error body that a message keeps: 8 KiB. -/
def previewLimit : Nat := 8192

/-! ## Retries -/

/-- Delays that grow from `initial` by a factor up to `max`. -/
structure ExponentialBackoff where
  initial : Duration
  max : Duration
  multiplier : Binary64
  /-- Whether up to a quarter is added at random. -/
  jitter : Bool
deriving DecidableEq, Repr

namespace ExponentialBackoff

def default : ExponentialBackoff := ⟨.ofMillis 100, .ofSeconds 10, .ofNat 2, true⟩

/-- The default with other bounds. -/
def between (initial max : Duration) : ExponentialBackoff := { default with initial, max }

/-- Delays of a few milliseconds without chance. -/
def fast : ExponentialBackoff := ⟨.ofMillis 1, .ofMillis 100, .ofNat 2, false⟩

end ExponentialBackoff

/-- The delay before a retry. -/
inductive Backoff where
  | none
  | fixed (delay : Duration)
  | exponential (growth : ExponentialBackoff)
deriving DecidableEq, Repr

def Backoff.default : Backoff := .exponential .default

structure RetryConfig where
  maxRetries : Nat
  backoff : Backoff
  /-- Whether failures that are the client's own fault are retried as well. -/
  retryClientErrors : Bool
deriving DecidableEq, Repr

namespace RetryConfig

def default : RetryConfig := ⟨3, .default, false⟩
def disabled : RetryConfig := { default with maxRetries := 0 }
def fast (maxRetries : Nat) : RetryConfig := ⟨maxRetries, .exponential .fast, false⟩

end RetryConfig

/-! ## Balancing and breaking -/

/-- How often a call is sent again to the instance that failed, and to another one. -/
structure BalancerConfig where
  retriesOnSame : Nat
  retriesOnNext : Nat
deriving DecidableEq, Repr

namespace BalancerConfig

def default : BalancerConfig := ⟨0, 1⟩

/-- Instances are chosen, and every failure is final. -/
def noFailover : BalancerConfig := ⟨0, 0⟩

end BalancerConfig

structure BreakerConfig where
  /-- The failures in a window that open the circuit. -/
  failureThreshold : UInt32
  /-- The calls in a window before failures count. -/
  minimumCalls : UInt32
  rollingWindow : Duration
  /-- The time that an open circuit waits before it admits trials. -/
  sleepWindow : Duration
  /-- The trials that run at one time. -/
  halfOpenMaxCalls : UInt32
  executionTimeout : Option Duration
  uniquifier : Option String
  keyByTarget : Bool
deriving DecidableEq, Repr

namespace BreakerConfig

def default : BreakerConfig := ⟨5, 5, .ofSeconds 10, .ofSeconds 5, 1, .none, .none, true⟩

/-- The trials that a half-open breaker lets run at one time: at least one. -/
def trialLimit (c : BreakerConfig) : Nat := max c.halfOpenMaxCalls.toNat 1

end BreakerConfig

/-! ## Transport -/

/-- Where trusted certificates come from. -/
inductive TlsRoots where
  | webPki
  | native
deriving DecidableEq, Repr

structure TransportOptions where
  connectTimeout : Duration
  requestTimeout : Option Duration
  compression : Bool
  followRedirects : Bool
  proxy : Option String
  poolIdleTimeout : Option Duration
  poolMaxIdlePerHost : Nat
  allowInsecureHttp : Bool
  tlsRoots : TlsRoots
deriving DecidableEq, Repr

namespace TransportOptions

def default : TransportOptions :=
  ⟨.ofSeconds 10, some (.ofSeconds 30), true, false, .none, some (.ofSeconds 90), 32, false, .webPki⟩

/-- Short timeouts, and plain HTTP allowed. -/
def forTesting : TransportOptions :=
  { default with
    connectTimeout := .ofSeconds 2
    requestTimeout := some (.ofSeconds 10)
    poolIdleTimeout := some (.ofSeconds 10)
    poolMaxIdlePerHost := 4
    allowInsecureHttp := true }

end TransportOptions

/-! ## Clients -/

/-- How much of an exchange is logged. -/
inductive LogLevel where
  | none
  | basic
  | headers
  | full
deriving DecidableEq, Repr

namespace LogLevel

/-- The position of a level in their order. -/
def rank : LogLevel → Nat
  | .none => 0
  | .basic => 1
  | .headers => 2
  | .full => 3

def default : LogLevel := .basic

end LogLevel

structure ClientConfig where
  logLevel : LogLevel
  /-- Whether a 404 counts as an empty answer. -/
  decode404 : Bool
  /-- The limit of an aggregated body. -/
  maxBodySize : Nat
  userAgent : String
  retry : Option RetryConfig
  balancer : Option BalancerConfig
  breaker : Option BreakerConfig
  transport : TransportOptions
deriving DecidableEq, Repr

namespace ClientConfig

def default : ClientConfig :=
  { logLevel := .basic
    decode404 := false
    maxBodySize := defaultMaxBodySize
    userAgent := defaultUserAgent
    retry := some .default
    balancer := some .default
    breaker := .none
    transport := .default }

/-- Neither retries nor failover nor a breaker, and nothing logged. -/
def minimal : ClientConfig :=
  { default with
    logLevel := .none
    maxBodySize := 1048576
    retry := .none
    balancer := .none
    breaker := .none }

/-- Retries, failover and a breaker. -/
def resilient : ClientConfig :=
  { default with
    retry := some { RetryConfig.default with maxRetries := 5 }
    balancer := some ⟨1, 2⟩
    breaker := some .default }

/-- Plain HTTP to local servers, with everything logged. -/
def forTesting : ClientConfig :=
  { default with
    logLevel := .full
    maxBodySize := 1048576
    retry := .none
    balancer := .none
    breaker := .none
    transport := .forTesting }

end ClientConfig

end ResilientClient
