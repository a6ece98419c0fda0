/-
Where the calls of a client go: to a fixed base URL, or to the instances of a service.
-/
import ResilientClient.Error

namespace ResilientClient

inductive Target where
  /-- A base URL. -/
  | url (base : String)
  /-- A service whose instances are looked up for each attempt. -/
  | service (name : String)
deriving DecidableEq, Repr

namespace Target

/-- The URL or the name of the service. -/
def name : Target → String
  | .url base => base
  | .service name => name

def isLogical : Target → Bool
  | .url _ => false
  | .service _ => true

def text : Target → String
  | .url base => base
  | .service name => "service:" ++ name

end Target

/-- One instance of a service. -/
structure Server where
  host : String
  port : Nat
  secure : Bool
  /-- Sorted by name, each name once. -/
  metadata : List (String × String)
deriving DecidableEq, Repr

namespace Server

/-- Puts an entry into a list sorted by name; it replaces the one of the same name. -/
def insertEntry (name value : String) : List (String × String) → List (String × String)
  | [] => [(name, value)]
  | (n, v) :: rest =>
    if n = name then (name, value) :: rest
    else if name < n then (name, value) :: (n, v) :: rest
    else (n, v) :: insertEntry name value rest

/-- The instance with one more entry of metadata. -/
def withMetadata (s : Server) (name value : String) : Server :=
  { s with metadata := insertEntry name value s.metadata }

def text (s : Server) : String := s.host ++ ":" ++ toString s.port

/-- The base URL of an instance; a bare address with colons is put into brackets. -/
def baseUrl (s : Server) : String :=
  let scheme := if s.secure then "https" else "http"
  let chars := s.host.toList
  let host :=
    if chars.contains ':' && chars.head? != some '[' then "[" ++ s.host ++ "]" else s.host
  scheme ++ "://" ++ host ++ ":" ++ toString s.port

end Server

end ResilientClient
