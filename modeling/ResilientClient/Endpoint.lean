/-
Declared methods: the verb, the templates of the path, the query and the headers, which argument
goes where, and the shape of the result.
-/
import ResilientClient.Error
import ResilientClient.Grouping
import ResilientClient.Http.Header
import ResilientClient.Template

namespace ResilientClient

/-- The declared result of a method. -/
inductive ReturnShape where
  /-- At most one element. -/
  | single
  /-- Any number of elements. -/
  | stream
  /-- A declaration that no client serves. -/
  | unsupported (shape : String)
deriving DecidableEq, Repr

/-- A declared method with its templates compiled. -/
structure Endpoint where
  key : String
  verb : String
  path : Template
  queries : List (String × List Template)
  headers : List (Http.HeaderName × List Template)
  /-- The placeholders that each argument feeds. -/
  placeholders : List (Nat × List String)
  bodyIndex : Option Nat
  queryMapIndex : Option Nat
  headerMapIndex : Option Nat
  returns : ReturnShape
deriving DecidableEq, Repr

namespace Endpoint

/-- Refuses a result that no client serves. -/
def validate (e : Endpoint) : Except Error Unit :=
  match e.returns with
  | .unsupported shape => .error (.unsupportedReturn e.key shape)
  | _ => .ok ()

/-! ## Drafts -/

/-- A method while it is being declared. -/
structure Draft where
  key : String
  verb : String
  path : String
  queries : List (String × List String) := []
  headers : List (String × List String) := []
  placeholders : List (Nat × List String) := []
  bodyIndex : Option Nat := none
  queryMapIndex : Option Nat := none
  headerMapIndex : Option Nat := none
  returns : ReturnShape := .single
deriving DecidableEq, Repr

/-- Two spellings of one header name. -/
def sameHeader (a b : String) : Bool := Http.HeaderName.fold a == Http.HeaderName.fold b

namespace Draft

/-- Declares a query parameter; a further template of a name joins the earlier ones. -/
def query (d : Draft) (name template : String) : Draft :=
  { d with queries := Grouping.add (· == ·) name template d.queries }

/-- Declares a header; a further template of a name joins the earlier ones. -/
def header (d : Draft) (name template : String) : Draft :=
  { d with headers := Grouping.add sameHeader name template d.headers }

/-- Lets an argument feed a placeholder. -/
def param (d : Draft) (index : Nat) (name : String) : Draft :=
  { d with placeholders := Grouping.add (· == ·) index name d.placeholders }

/-- The argument is the body. -/
def body (d : Draft) (index : Nat) : Draft := { d with bodyIndex := some index }

/-- The argument is a map of further query parameters. -/
def queryMap (d : Draft) (index : Nat) : Draft := { d with queryMapIndex := some index }

/-- The argument is a map of further headers. -/
def headerMap (d : Draft) (index : Nat) : Draft := { d with headerMapIndex := some index }

/-- Declares the result. -/
def returning (d : Draft) (shape : ReturnShape) : Draft := { d with returns := shape }

/-- The arguments with a role of their own. -/
def roles (d : Draft) : List Nat :=
  [d.bodyIndex, d.queryMapIndex, d.headerMapIndex].filterMap id

/-- The first element that occurs again later in a list. -/
def firstRepeated? : List Nat → Option Nat
  | [] => none
  | i :: rest => if i ∈ rest then some i else firstRepeated? rest

/-- Compiles the templates of one header. -/
def compileHeader (entry : String × List String) :
    Except Error (Http.HeaderName × List Template) :=
  match Http.HeaderName.parse? entry.1 with
  | some name => .ok (name, entry.2.map Template.compile)
  | none => .error .invalidHeaderName

/-- Completes the declaration: no argument has two roles, and the header names are well formed. -/
def build (d : Draft) : Except Error Endpoint :=
  match firstRepeated? d.roles with
  | some i =>
    .error (.configuration (d.key ++ ": argument " ++ toString i ++
      " is bound to more than one of body/query map/header map"))
  | none =>
    match d.headers.mapM compileHeader with
    | .error e => .error e
    | .ok headers => .ok {
        key := d.key
        verb := d.verb
        path := .compile d.path
        queries := d.queries.map fun entry => (entry.1, entry.2.map Template.compile)
        headers
        placeholders := d.placeholders
        bodyIndex := d.bodyIndex
        queryMapIndex := d.queryMapIndex
        headerMapIndex := d.headerMapIndex
        returns := d.returns }

end Draft

end Endpoint

end ResilientClient
