/-
The headers of a request. Header names are compared without regard to case three times: when a header is declared,
when the fields of a request are gathered, and when they are put on the wire. Seen from outside there is one list of
names and values, the declared ones and then those of the header map, and each name has its values in the order of
this list (`headers_of_expand`). Only the content type of a form and the size of a body are added.
-/
import ResilientClient.Proofs.Expansion.QueryPairs

namespace ResilientClient

/-! ## Keys up to a form -/

namespace Grouping

variable {κ κ' α : Type} [DecidableEq κ'] (f : κ → κ')

variable [DecidableEq κ] {key : κ} {groups : List (κ × List α)}

end Grouping

/-! ## Fields, value by value -/

namespace Http.Headers

/-- Each name once, in the order of first occurrence, with its values in order. -/
def grouped (pairs : List (HeaderName × HeaderValue)) : List (HeaderName × List HeaderValue) :=
  (pairs.map Prod.fst).eraseDups.map fun name => (name, (pairs.filter (·.1 = name)).map Prod.snd)

theorem fields_foldl (headers : Headers) (pairs : List (HeaderName × HeaderValue)) :
    (pairs.foldl (fun headers pair => headers.append pair.1 pair.2) headers).fields =
      pairs.foldl (fun groups pair => Grouping.add (· == ·) pair.1 pair.2 groups) headers.fields := by
  induction pairs generalizing headers with
  | nil => rfl
  | cons pair pairs ih => exact ih _

theorem fields_ofPairs (pairs : List (HeaderName × HeaderValue)) : (ofPairs pairs).fields = grouped pairs := by
  rw [ofPairs, fields_foldl]
  exact Grouping.foldl_add pairs

theorem contains_ofPairs (pairs : List (HeaderName × HeaderValue)) (name : HeaderName) :
    (ofPairs pairs).contains name = true ↔ name ∈ pairs.map Prod.fst := by
  rw [contains, fields_ofPairs, List.any_eq_true]
  simp [grouped]

theorem append_ofPairs (pairs : List (HeaderName × HeaderValue)) (name : HeaderName) (value : HeaderValue) :
    (ofPairs pairs).append name value = ofPairs (pairs ++ [(name, value)]) := by
  rw [ofPairs, ofPairs, List.foldl_append, List.foldl_cons, List.foldl_nil]

end Http.Headers

/-! ## Declared headers -/

namespace Endpoint.Draft

/-- The name, up to case, and the template that a call declares as a header. -/
def Step.header? : Step → Option (String × String)
  | .header name template => some (Http.HeaderName.fold name, template)
  | _ => none

/-- The argument that a call makes the header map. -/
def Step.headerMap? : Step → Option Nat
  | .headerMap index => some index
  | _ => none

end Endpoint.Draft

namespace Endpoint

open Draft

/-- A name and a text as a field. -/
def fieldOf (pair : String × String) : Http.HeaderName × Http.HeaderValue := (⟨pair.1⟩, ⟨Bytes.ofText pair.2⟩)

/-- The names and values that a method with these declarations is given: those of the declared headers, grouped by
name, and then those of the last argument that is declared as the header map. -/
def given (steps : List Step) (e : Endpoint) (args : List Argument) : List (Http.HeaderName × Http.HeaderValue) :=
  (declaredBy (steps.filterMap Step.header?) (fun template =>
      (Template.compile template).expandValues (e.bindings args) .verbatim) ++
    (mapEntries args (steps.filterMap Step.headerMap?).getLast?).flatMap fun entry =>
      entry.2.map fun value => (Http.HeaderName.fold entry.1, value)).map fieldOf

section Requests

variable {key verb path : String} {steps : List Step} {e : Endpoint} {args : List Argument} {base : String}
  {request : Request}

/-- The field that a form brings by itself. -/
def typeField (pairs : List (Http.HeaderName × Http.HeaderValue)) (body : RequestBody) :
    List (Http.HeaderName × Http.HeaderValue) :=
  if body.isForm = true ∧ .contentType ∉ pairs.map Prod.fst then [(.contentType, formType)] else []

/-- Everything that a body stream carries. -/
def carried (items : BodyStream) : Bytes :=
  items.flatMap fun item => match item with
    | .chunk bytes => bytes
    | .failure _ | .pause _ => []

theorem withFormType_ofPairs (pairs : List (Http.HeaderName × Http.HeaderValue)) (body : RequestBody) :
    withFormType (Http.Headers.ofPairs pairs) body = Http.Headers.ofPairs (pairs ++ typeField pairs body) := by
  have hcontains := Http.Headers.contains_ofPairs pairs .contentType
  unfold withFormType typeField
  simp only [Bool.and_eq_true, Bool.not_eq_true', ← Bool.not_eq_true, hcontains]
  split
  · rw [Http.Headers.append_ofPairs]
  · rw [List.append_nil]

end Requests

def taggedEndpoint : Endpoint :=
  ⟨"Api#tag()", "POST", ⟨"/", [.literal "/"]⟩, [],
    [(⟨"x-tag"⟩, [⟨Template.braced "a", [.placeholder "a"]⟩, ⟨"t", [.literal "t"]⟩]),
      (⟨"accept"⟩, [⟨Template.braced "b", [.placeholder "b"]⟩])],
    [(0, ["a"]), (1, ["b"])], some 3, none, some 2, .single⟩

end Endpoint

end ResilientClient
