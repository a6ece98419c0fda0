/-
Bodies: what a body stream yields, and the bodies of requests, which can be opened for each attempt
again unless they are one-shot.
-/
import ResilientClient.Error
import ResilientClient.Json.Value
import ResilientClient.Text.Form

namespace ResilientClient

/-- One step of a body stream: a chunk, a failure, or a wait. -/
inductive BodyItem where
  | chunk (bytes : Bytes)
  | failure (error : Error)
  | pause (wait : Duration)
deriving DecidableEq, Repr

/-- A body as it arrives, with finitely many steps; it goes on after a failure. -/
abbrev BodyStream := List BodyItem

/-- The body of a request. -/
inductive RequestBody where
  | empty
  | bytes (content : Bytes)
  /-- A payload that is already form-encoded. -/
  | form (content : Bytes)
  /-- A stream that starts afresh whenever it is opened. -/
  | stream (items : BodyStream)
  /-- A stream that can be opened once; copies of the body share its number. -/
  | oneShot (number : Nat) (items : BodyStream)
deriving DecidableEq, Repr

/-- The numbers of the one-shot bodies that have been opened. -/
abbrev OpenedBodies := List Nat

namespace RequestBody

/-! ## Construction -/

/-- The stream of given chunks. -/
def ofChunks (chunks : List Bytes) : RequestBody := .stream (chunks.map .chunk)

/-- The form payload of a list of pairs. -/
def ofPairs (pairs : List (String × String)) : RequestBody :=
  .form (Bytes.ofText (Text.Form.encodePairs pairs))

/-- The compact JSON text of a value. -/
def ofJson (value : Json) : RequestBody := .bytes (Bytes.ofText value.normalize.render)

/-- In a form a positive exponent has no sign. -/
def formExponent : Json.ExponentFormat := ⟨false⟩

/-- The text of a scalar in a form. -/
def formField? : Json → Option String
  | .string s => some s
  | .bool b => some (if b then "true" else "false")
  | .integer n => some (toString n)
  | .float x => some (Json.floatText formExponent x)
  | _ => none

/-- The pairs of the members of an object, each a scalar. -/
def formFields : List (String × Json) → Except Error (List (String × String))
  | [] => .ok []
  | (name, value) :: rest =>
    match formField? value with
    | none => .error (.formEncoding .field)
    | some text => (formFields rest).map ((name, text) :: ·)

/-- The form payload of a value: the members of an object in the order of their names; `null` and
the empty list give the empty payload. -/
def ofFormValue (value : Json) : Except Error RequestBody :=
  match value.normalize with
  | .object members => (formFields members).map ofPairs
  | .null => .ok (.form [])
  | .array [] => .ok (.form [])
  | .array _ => .error (.formEncoding .pair)
  | _ => .error (.formEncoding .topLevel)

/-! ## Queries -/

/-- There is no body at all. -/
def isEmpty : RequestBody → Bool
  | .empty => true
  | _ => false

/-- The size of a body that is at hand as a whole. -/
def size? : RequestBody → Option Nat
  | .empty => some 0
  | .bytes content => some content.length
  | .form content => some content.length
  | .stream _ => none
  | .oneShot .. => none

/-- A description that does not show the content. -/
def describe : RequestBody → String
  | .empty => "Empty"
  | .bytes content => "Bytes(" ++ toString content.length ++ " bytes)"
  | .form content => "Form(" ++ toString content.length ++ " bytes)"
  | .stream _ => "Stream"
  | .oneShot .. => "OneShot"

/-- A form payload. -/
def isForm : RequestBody → Bool
  | .form _ => true
  | _ => false

/-! ## Opening -/

/-- Opens a body for one transmission by the method of that key; a one-shot body that has been
opened before is refused. -/
def open? (body : RequestBody) (method : String) (opened : OpenedBodies) :
    Except Error BodyStream × OpenedBodies :=
  match body with
  | .empty => (.ok [], opened)
  | .bytes content => (.ok [.chunk content], opened)
  | .form content => (.ok [.chunk content], opened)
  | .stream items => (.ok items, opened)
  | .oneShot number items =>
    if number ∈ opened then (.error (.bodyConsumed method), opened)
    else (.ok items, number :: opened)

end RequestBody

end ResilientClient
