/-
Openings of bodies on record. Every opening of a request body that goes through a ledger is written down with its
result, and whatever else the collaborators of a client do, they do not touch what is open. On such a record a
one-shot body yields its content when it is opened for the first time, and every later opening is refused with a
failure that names the method that asked (`opensOnce_of_reaches`).
-/
import ResilientClient.HttpTransport
import ResilientClient.Proofs.Fiber.Abides
import ResilientClient.Proofs.Pipeline.Record

open ResilientClient.Fiber

namespace ResilientClient

variable {ε δ : Type}

/-! ## Opening a body -/

namespace RequestBody

variable {body : RequestBody} {method : String} {opened : OpenedBodies}

theorem open?_oneShot (number : Nat) (items : BodyStream) (method : String) (opened : OpenedBodies) :
    (oneShot number items).open? method opened =
      if number ∈ opened then (.error (.bodyConsumed method), opened) else (.ok items, number :: opened) := rfl

/-- The only reason to refuse a body. -/
theorem eq_bodyConsumed_of_open? {e : Error} (h : (body.open? method opened).1 = .error e) :
    e = .bodyConsumed method := by
  cases body with
  | oneShot number items =>
    rw [open?_oneShot] at h
    split at h
    · cases h
      rfl
    · cases h
  | empty | bytes | form | stream => cases h

theorem mem_open? (number : Nat) :
    number ∈ (body.open? method opened).2 ↔ number ∈ opened ∨ ∃ items, body = .oneShot number items := by
  cases body with
  | oneShot number' items =>
    have hnumber : (∃ items', oneShot number' items = oneShot number items') ↔ number = number' := by
      simp [eq_comm]
    rw [open?_oneShot, hnumber]
    split
    · rename_i hmem
      exact ⟨.inl, fun h => h.elim id fun heq => heq ▸ hmem⟩
    · rw [List.mem_cons, or_comm]
  | empty | bytes | form | stream => simp [open?]

end RequestBody

theorem Request.toWire_eq (request : Request) (opened : OpenedBodies) :
    (request.toWire opened).1.map WireRequest.body = (request.body.open? request.method opened).1 ∧
      (request.toWire opened).2 = (request.body.open? request.method opened).2 := by
  unfold toWire
  rcases request.body.open? request.method opened with ⟨_ | items, after⟩
  · exact ⟨rfl, rfl⟩
  · exact ⟨rfl, rfl⟩

/-! ## Ledgers -/

/-- An opening of a body. -/
structure Opening where
  body : RequestBody
  /-- The key of the method that asked. -/
  method : String
  /-- Whether it was for an execution of a transport. -/
  executed : Bool
  result : Except Error BodyStream
deriving DecidableEq

/-- What the collaborators of a client keep, and the openings of bodies, the latest first. -/
structure Ledger (δ : Type) where
  own : δ
  openings : List Opening

namespace Ledger

/-- Writes an opening down. -/
def write (opening : Opening) (o : Outside (Ledger δ)) : Outside (Ledger δ) :=
  { o with own := { o.own with openings := opening :: o.own.openings } }

/-- Opens a body by the way. -/
def openBody (body : RequestBody) (method : String) :
    Fiber (Outside (Ledger δ)) (Except Error BodyStream) :=
  .modifyGet fun _ o =>
    let (result, opened) := body.open? method o.opened
    (result, write ⟨body, method, false, result⟩ { o with opened })

/-- Puts a request into its form on the wire, for an execution. -/
def openWire (request : Request) : Fiber (Outside (Ledger δ)) (Except Error WireRequest) :=
  .modifyGet fun _ o =>
    let (wire, opened) := request.toWire o.opened
    (wire, write ⟨request.body, request.method, true, wire.map WireRequest.body⟩ { o with opened })

/-- No body is opened. -/
def Keeps (o o' : Outside (Ledger δ)) : Prop := o'.opened = o.opened ∧ o'.own.openings = o.own.openings

/-- A body is opened and that is written down. -/
structure Opens (opening : Opening) (o o' : Outside (Ledger δ)) : Prop where
  result : opening.result = (opening.body.open? opening.method o.opened).1
  opened : o'.opened = (opening.body.open? opening.method o.opened).2
  written : o'.own.openings = opening :: o.own.openings

/-- No body is opened for an execution. -/
def Aside (o o' : Outside (Ledger δ)) : Prop := Keeps o o' ∨ ∃ opening, opening.executed = false ∧ Opens opening o o'

/-- Bodies are opened on record only. -/
def OnRecord (o o' : Outside (Ledger δ)) : Prop := Keeps o o' ∨ ∃ opening, Opens opening o o'

section Steps

variable {o o' : Outside (Ledger δ)} {opening opening' : Opening}

theorem keeps_refl (o : Outside (Ledger δ)) : Keeps o o := ⟨rfl, rfl⟩

theorem Aside.onRecord (h : Aside o o') : OnRecord o o' := h.imp_right fun ⟨opening, _, hopens⟩ => ⟨opening, hopens⟩

theorem Opens.unique (h : Opens opening o o') (h' : Opens opening' o o') : opening = opening' :=
  (List.cons.inj (h.written.symm.trans h'.written)).1

theorem Opens.not_keeps (h : Opens opening o o') (hkeeps : Keeps o o') : False :=
  List.cons_ne_self _ _ (h.written.symm.trans hkeeps.2)

theorem opens_openWire (request : Request) (o : Outside (Ledger δ)) :
    Opens ⟨request.body, request.method, true, (request.toWire o.opened).1.map WireRequest.body⟩ o
      (write ⟨request.body, request.method, true, (request.toWire o.opened).1.map WireRequest.body⟩
        { o with opened := (request.toWire o.opened).2 }) :=
  ⟨(request.toWire_eq o.opened).1, (request.toWire_eq o.opened).2, rfl⟩

theorem obeys_openBody (body : RequestBody) (method : String) :
    Obeys Aside (openBody body method : Fiber (Outside (Ledger δ)) (Except Error BodyStream)) :=
  obeys_modifyGet fun _ _ => .inr ⟨_, rfl, rfl, rfl, rfl⟩

end Steps

end Ledger

/-! ## Transports -/

/-- A transport but for the opening of the body: what it does before and after that. -/
structure Executor (ε : Type) where
  before : Request → Fiber (Outside ε) (Except Error Unit)
  work : Request → WireRequest → Fiber (Outside ε) Outcome

/-- The transport that opens the body of a request once in each execution. -/
def Executor.transport (executor : Executor ε)
    (openWire : Request → Fiber (Outside ε) (Except Error WireRequest)) : Transport ε := fun request =>
  (executor.before request).andThen fun
    | .error e => .done (.error e)
    | .ok () =>
      (openWire request).andThen fun
        | .error e => .done (.error e)
        | .ok wire => executor.work request wire

namespace HttpTransport

/-- The scheme is checked first, and the request is exchanged last. -/
def executor (options : TransportOptions) (network : Network ε) : Executor ε where
  before request := .done (checkScheme options request.uri.scheme)
  work _ wire := exchange options.requestTimeout network wire

theorem transport_eq (options : TransportOptions) (network : Network ε) :
    transport options network = (executor options network).transport openWire := by
  funext request
  unfold Executor.transport
  refine Eq.trans ?_ (done_andThen (checkScheme options request.uri.scheme) _).symm
  rfl

/-- The scheme is one that the transport takes. -/
def Takes (options : TransportOptions) (scheme : Option String) : Prop :=
  scheme = some "https" ∨ scheme = some "http" ∧ options.allowInsecureHttp = true

theorem checkScheme_of_not_takes {options : TransportOptions} {scheme : Option String}
    (h : ¬ Takes options scheme) : ∃ reason, checkScheme options scheme =
      .error (.schemeRefused (scheme.getD "") reason) := by
  unfold checkScheme
  split
  · exact absurd (.inl rfl) h
  · split
    · rename_i hallowed
      exact absurd (.inr ⟨rfl, hallowed⟩) h
    · exact ⟨_, rfl⟩
  · exact ⟨_, rfl⟩

end HttpTransport

/-! ## Records -/

/-- The body is the one-shot body of that number. -/
def Opening.Of (number : Nat) (opening : Opening) : Prop := ∃ items, opening.body = .oneShot number items

/-- The content of the one-shot body of that number is handed over. -/
def Opening.yields (number : Nat) (opening : Opening) : Bool :=
  match opening.body, opening.result with
  | .oneShot number' _, .ok _ => number' == number
  | _, _ => false

theorem Opening.exists_of_yields {number : Nat} {opening : Opening} (h : opening.yields number = true) :
    (∃ items, opening.body = .oneShot number items) ∧ ∃ items, opening.result = .ok items := by
  unfold yields at h
  split at h
  · rename_i hbody hresult
    obtain rfl := beq_iff_eq.1 h
    exact ⟨⟨_, hbody⟩, _, hresult⟩
  · cases h

/-- The first opening of a one-shot body yields all of its content, and every later one is refused with a failure
that names the method that asked. -/
def OpensOnce (opened : OpenedBodies) (record : List Opening) : Prop :=
  ∀ before opening after number items, record = before ++ opening :: after →
    opening.body = .oneShot number items →
      (number ∉ opened → (∀ earlier ∈ before, ¬ earlier.Of number) → opening.result = .ok items) ∧
      (number ∈ opened ∨ (∃ earlier ∈ before, earlier.Of number) →
        opening.result = .error (.bodyConsumed opening.method))

namespace OpensOnce

variable {opened : OpenedBodies} {record : List Opening} {opening : Opening}

theorem nil : OpensOnce opened [] := by
  intro before opening after number items h
  simp at h

theorem of_concat (h : OpensOnce opened (record ++ [opening])) : OpensOnce opened record := by
  rintro before o after number items rfl hbody
  exact h before o (after ++ [opening]) number items (by simp) hbody

theorem concat (h : OpensOnce opened record)
    (hlast : ∀ number items, opening.body = .oneShot number items →
      (number ∉ opened → (∀ earlier ∈ record, ¬ earlier.Of number) → opening.result = .ok items) ∧
      (number ∈ opened ∨ (∃ earlier ∈ record, earlier.Of number) →
        opening.result = .error (.bodyConsumed opening.method))) :
    OpensOnce opened (record ++ [opening]) := by
  intro before o after number items hsplit hbody
  rcases List.eq_nil_or_concat after with rfl | ⟨after', last, rfl⟩
  · obtain ⟨rfl, hone⟩ := List.append_inj' hsplit rfl
    obtain rfl := List.singleton_inj.1 hone
    exact hlast number items hbody
  · have hends : record ++ [opening] = (before ++ o :: after') ++ [last] := by simpa using hsplit
    obtain ⟨rfl, -⟩ := List.append_inj' hends rfl
    exact h before o after' number items rfl hbody

/-- The content of a one-shot body is handed over once at most. -/
theorem countP_le (h : OpensOnce opened record) (number : Nat) :
    record.countP (Opening.yields number) ≤ 1 := by
  induction record using List.reverseRecOn with
  | nil => simp
  | append_singleton record opening ih =>
    rw [List.countP_append, List.countP_singleton]
    split
    · rename_i hyields
      obtain ⟨⟨items, hbody⟩, items', hresult⟩ := Opening.exists_of_yields hyields
      -- after an earlier opening there would have been a refusal
      have hnone : record.countP (Opening.yields number) = 0 := by
        refine List.countP_eq_zero.2 fun earlier hmem hearlier => ?_
        have hrefused := (h record opening [] number items rfl hbody).2
          (.inr ⟨earlier, hmem, (Opening.exists_of_yields hearlier).1⟩)
        rw [hresult] at hrefused
        cases hrefused
      omega
    · exact ih h.of_concat

end OpensOnce

/-- What is written down while bodies are opened on record only. -/
theorem opensOnce_of_reaches {s s' : World (Ledger δ)}
    (h : Relation.ReflTransGen (fun s s' => Ledger.OnRecord s.outside s'.outside) s s') :
    OpensOnce s.outside.opened (gained s.outside.own.openings s'.outside.own.openings) := by
  suffices hall : ∃ record, s'.outside.own.openings = record.reverse ++ s.outside.own.openings ∧
      OpensOnce s.outside.opened record ∧ ∀ number, number ∈ s'.outside.opened ↔
        number ∈ s.outside.opened ∨ ∃ opening ∈ record, opening.Of number by
    obtain ⟨record, hwritten, honce, -⟩ := hall
    rwa [hwritten, gained_append, List.reverse_reverse]
  induction h with
  | refl => exact ⟨[], rfl, .nil, by simp⟩
  | tail _ hstep ih =>
    obtain ⟨record, hwritten, honce, hopened⟩ := ih
    rcases hstep with hkeeps | ⟨opening, hopens⟩
    · exact ⟨record, hkeeps.2.trans hwritten, honce, by rwa [hkeeps.1]⟩
    · refine ⟨record ++ [opening], by simp [hopens.written, hwritten], honce.concat fun number items hbody => ?_,
        fun number => ?_⟩
      · have hresult := hopens.result
        rw [hbody, RequestBody.open?_oneShot] at hresult
        refine ⟨fun hnot hnone => ?_, fun hagain => ?_⟩
        · rw [hresult, if_neg]
          rw [hopened]
          rintro (hmem | ⟨earlier, hmem, hof⟩)
          · exact hnot hmem
          · exact hnone earlier hmem hof
        · rw [hresult, if_pos ((hopened number).2 hagain)]
      · rw [hopens.opened, RequestBody.mem_open?, hopened]
        simp only [List.mem_append, List.mem_singleton, or_and_right, exists_or, exists_eq_left, or_assoc]
        rfl

end ResilientClient
