/-
Clients: the methods declared on a target, each under its key.
-/
import ResilientClient.Client.Method

namespace ResilientClient

/-- A target with the methods that are declared on it. -/
structure Client (ε : Type) where
  target : Target
  methods : List (Method ε)

namespace Client

variable {ε : Type}

/-- The method of a key, if it is declared. -/
def method? (c : Client ε) (key : String) : Option (Method ε) :=
  c.methods.find? fun m => m.key == key

/-- The method of a key; one that is not declared is a fault of the configuration. -/
def method (c : Client ε) (key : String) : Except Error (Method ε) :=
  match c.method? key with
  | some m => .ok m
  | none =>
    .error (.configuration
      ("method '" ++ key ++ "' is not declared on client for " ++ c.target.text))

/-- The keys of the declared methods, sorted. -/
def keys (c : Client ε) : List String := (c.methods.map Method.key).mergeSort

/-- Invokes the method of a key in its declared shape. -/
def invoke (c : Client ε) (key : String) (args : List Argument) :
    Stage ε (Except Error (Reply ε)) :=
  match c.method key with
  | .ok m => m.invoke args
  | .error e => .done (.error e)

/-- Invokes the method of a key for a single element. -/
def invokeSingle (c : Client ε) (key : String) (args : List Argument) :
    Stage ε (Except Error (Option Bytes)) :=
  match c.method key with
  | .ok m => m.invokeSingle args
  | .error e => .done (.error e)

/-- A description of a target for diagnostics. -/
def describeTarget : Target → String
  | .url base => "Url(" ++ Text.Quoted.text base ++ ")"
  | .service name => "Service(" ++ Text.Quoted.text name ++ ")"

/-- A description for diagnostics. -/
def describe (c : Client ε) : String :=
  "FeignClient \x7b target: " ++ describeTarget c.target ++ ", methods: [" ++
    Text.join ", " (c.keys.map Text.Quoted.text) ++ "] \x7d"

end Client

end ResilientClient
