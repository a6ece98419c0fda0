/-
Interceptors: changes that every request of a client goes through before it is sent.
-/
import ResilientClient.Request

namespace ResilientClient

/-- A change to a request, which may refuse it. It depends on the request alone and takes no time. -/
abbrev Interceptor := Request → Except Error Request

/-- A header that is put on every request. -/
structure HeaderRule where
  name : Http.HeaderName
  value : Http.HeaderValue
  /-- Whether it replaces the values that a request brings. -/
  overwrite : Bool
deriving DecidableEq, Repr

namespace HeaderRule

/-- The rule for a header that a request may bring itself. -/
def ifAbsent (name value : String) : Except Error HeaderRule :=
  match Http.HeaderName.parse? name with
  | none => .error .invalidHeaderName
  | some n =>
    match Http.HeaderValue.ofText? value with
    | none => .error .invalidHeaderValue
    | some v => .ok ⟨n, v, false⟩

/-- The rule for a header that replaces what a request brings. -/
def overwriting (name value : String) : Except Error HeaderRule :=
  (ifAbsent name value).map fun rule => { rule with overwrite := true }

/-- The rule for the `User-Agent`. -/
def userAgent (value : String) : Except Error HeaderRule := ifAbsent "user-agent" value

theorem userAgent_eq (value : String) : userAgent value =
    if (Bytes.ofText value).all Http.isValueByte then .ok ⟨.userAgent, ⟨Bytes.ofText value⟩, false⟩
    else .error .invalidHeaderValue := by
  have hname : Http.HeaderName.parse? "user-agent" = some .userAgent := by decide
  simp only [userAgent, ifAbsent, hname, Http.HeaderValue.ofText?, Http.HeaderValue.ofBytes?]
  cases (Bytes.ofText value).all Http.isValueByte <;> rfl

/-- The request under a rule. -/
def apply (rule : HeaderRule) (request : Request) : Request :=
  if rule.overwrite then request.withHeaderReplaced rule.name rule.value
  else if request.headers.contains rule.name then request
  else request.withHeader rule.name rule.value

/-- A rule as a change that never refuses. -/
def toInterceptor (rule : HeaderRule) : Interceptor := fun request => .ok (rule.apply request)

end HeaderRule

/-- The request after a chain of changes; the first refusal ends it. -/
def Request.intercept (request : Request) (chain : List Interceptor) : Except Error Request :=
  chain.foldlM (fun request change => change request) request

end ResilientClient
