/-
Calls and the services they pass through: each layer of a pipeline makes a service of the one
inside it.
-/
import ResilientClient.Argument
import ResilientClient.Endpoint
import ResilientClient.Pipeline.World

namespace ResilientClient

/-- One invocation on its way; only the chosen instance differs between attempts. -/
structure Call where
  endpoint : Endpoint
  args : List Argument
  target : Target
  server : Option Server
deriving DecidableEq, Repr

namespace Call

/-- A call for which no instance has been chosen. -/
def start (endpoint : Endpoint) (args : List Argument) (target : Target) : Call :=
  ⟨endpoint, args, target, none⟩

/-- The key of the method. -/
def method (call : Call) : String := call.endpoint.key

/-- The call sent to an instance. -/
def toServer (call : Call) (server : Server) : Call := { call with server := some server }

end Call

/-- What an invocation or a part of it ends with. -/
abbrev Outcome := Except Error Response

/-- Serves calls. -/
abbrev Service (ε : Type) := Call → Stage ε Outcome

/-- Looks up an instance of a service. -/
abbrev Resolver (ε : Type) := String → Fiber (Outside ε) (Except Error Server)

/-- Stands in for a method: is told the key of the method, the arguments and the failure. -/
abbrev Fallback (ε : Type) := String → List Argument → Error → Fiber (Outside ε) Outcome

/-- Sends a request and waits for the response. -/
abbrev Transport (ε : Type) := Request → Fiber (Outside ε) Outcome

end ResilientClient
