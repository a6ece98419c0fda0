/-
Error bodies. To read a body up to a limit takes its chunks until the first failure, and that failure is
what the reader gets instead of them (`fault?`). A response whose status says that the request was at fault
so becomes a failure of that class exactly if no other failure turns up in the part of its body that is
previewed (`ends_decodeStatus`).
-/
import ResilientClient.Proofs.Fiber.Abides
import ResilientClient.StatusHandler

open ResilientClient.Fiber

namespace ResilientClient

namespace BodyStream

/-! ## Faults of a body -/

/-- The failure that reading up to `limit` bytes comes to, with `size` of them already read: the first
one, if the limit is not exceeded before. -/
def fault? (limit size : Nat) : BodyStream → Option Error
  | [] => none
  | .failure e :: _ => some e
  | .pause _ :: rest => fault? limit size rest
  | .chunk bytes :: rest =>
    if limit < size + bytes.length then none else fault? limit (size + bytes.length) rest

/-- The failure that a preview of at most `limit` bytes comes to: to say that a body is too large is part
of the preview. -/
def previewFault? (limit : Nat) (body : BodyStream) : Option Error :=
  (fault? limit 0 body).filter fun e => !e.isBodyTooLarge

/-- A preview of the body comes to no failure, unless it says itself that the request was at fault. -/
def Unbroken (limit : Nat) (body : BodyStream) : Prop :=
  ∀ e, body.previewFault? limit = some e → e.isClientRequestError = true

instance (limit : Nat) (body : BodyStream) : Decidable (Unbroken limit body) :=
  match h : body.previewFault? limit with
  | none => isTrue fun e he => by rw [h] at he; cases he
  | some e =>
    if he : e.isClientRequestError = true then
      isTrue fun e' he' => by rw [h] at he'; cases he'; exact he
    else isFalse fun hall => he (hall e h)

/-! ## Reading -/

section Reading

variable {σ : Type} {t t' : Instant} {s s' : σ} {ws : List (Write σ)}

/-- A body is read without a write, up to its fault or its end. -/
theorem ends_readBehind {limit : Nat} {body : BodyStream} : ∀ {chunks : List Bytes} {size : Nat}
    {t : Instant} {s : σ} {ws : List (Write σ)} {result : Except Error Bytes},
    Ends (readBehind limit chunks size body) t s ws result t' s' → ws = [] ∧
      match fault? limit size body with
      | some e => result = .error e
      | none => (∃ bytes, result = .ok bytes) ∨ ∃ actual, result = .error (.bodyTooLarge limit actual) := by
  induction body with
  | nil =>
    intro chunks size t s ws result h
    obtain ⟨rfl, rfl, rfl, rfl⟩ := ends_done.1 h
    exact ⟨rfl, .inl ⟨_, rfl⟩⟩
  | cons item rest ih =>
    intro chunks size t s ws result h
    cases item with
    | failure e =>
      obtain ⟨rfl, rfl, rfl, rfl⟩ := ends_done.1 h
      exact ⟨rfl, rfl⟩
    | pause d =>
      obtain ⟨us, _, t₁, s₁, vs, rfl, hsleep, hrest⟩ := (ends_andThen _ _).1 h
      obtain ⟨rfl, hresult⟩ := ih hrest
      exact ⟨by rw [ends_sleep hsleep, List.append_nil], hresult⟩
    | chunk bytes =>
      simp only [readBehind] at h
      simp only [fault?]
      split at h
      · rename_i hlarge
        obtain ⟨rfl, rfl, rfl, rfl⟩ := ends_done.1 h
        rw [if_pos hlarge]
        exact ⟨rfl, .inr ⟨_, rfl⟩⟩
      · rename_i hfits
        rw [if_neg hfits]
        exact ih h

/-- To read a body is to wait only. -/
theorem obeys_readAll {K : σ → σ → Prop} (hrefl : ∀ s, K s s) (limit : Nat) (body : BodyStream) :
    Obeys K (body.readAll limit : Fiber σ (Except Error Bytes)) := by
  unfold readAll
  fun_induction readBehind limit [] 0 body with
  | case1 => exact obeys_done _
  | case2 => exact obeys_done _
  | case3 _ _ d rest ih => exact obeys_andThen (obeys_sleep hrefl d) fun _ => ih
  | case4 => exact obeys_done _
  | case5 _ _ _ _ _ ih => exact ih

theorem ends_preview {limit : Nat} {body : BodyStream} {result : Except Error String}
    (h : Ends (preview limit body) t s ws result t' s') : ws = [] ∧
      match body.previewFault? limit with
      | some e => result = .error e
      | none => ∃ text, result = .ok text := by
  obtain ⟨us, read, t₁, s₁, vs, rfl, hread, hend⟩ := (ends_andThen _ _).1 h
  obtain ⟨rfl, hfault⟩ := ends_readBehind hread
  unfold previewFault?
  cases hf : fault? limit 0 body with
  | none =>
    rw [hf] at hfault
    rcases hfault with ⟨bytes, rfl⟩ | ⟨actual, rfl⟩
    · obtain ⟨rfl, rfl, rfl, rfl⟩ := ends_done.1 hend
      exact ⟨rfl, _, rfl⟩
    · obtain ⟨rfl, rfl, rfl, rfl⟩ := ends_done.1 hend
      exact ⟨rfl, _, rfl⟩
  | some e =>
    rw [hf] at hfault
    subst hfault
    cases e <;> obtain ⟨rfl, rfl, rfl, rfl⟩ := ends_done.1 hend
    case bodyTooLarge => exact ⟨rfl, _, rfl⟩
    all_goals exact ⟨rfl, rfl⟩

end Reading

end BodyStream

/-! ## Statuses that blame the request -/

/-- The 4xx statuses by which a server finds fault with the request. -/
def Http.Status.BlamesRequest (s : Http.Status) : Prop :=
  s.isClientError = true ∧ s ≠ .requestTimeout ∧ s ≠ .tooManyRequests

instance (s : Http.Status) : Decidable s.BlamesRequest :=
  inferInstanceAs (Decidable (_ ∧ _ ∧ _))

theorem isClientRequestError_status {method preview : String} {s : Http.Status}
    {contentType : Option String} {hint : Option Http.RetryHint} :
    (Error.status method s preview contentType hint).isClientRequestError = true ↔ s.BlamesRequest := by
  simp [Error.isClientRequestError, Error.status?, Error.rootCause, Http.Status.BlamesRequest, and_assoc]

/-- The default handler of statuses only waits. -/
theorem obeys_decodeStatus {σ : Type} {K : σ → σ → Prop} (hrefl : ∀ s, K s s) (wallClock limit : Nat) (method : String)
    (response : Response) : Obeys K (StatusHandler.decodeStatus wallClock limit method response : Fiber σ Error) := by
  refine obeys_andThen (obeys_andThen (BodyStream.obeys_readAll hrefl limit response.body) fun result => ?_)
    fun preview => ?_
  · split <;> exact obeys_done _
  · cases preview with
    | error e => exact obeys_done _
    | ok text => exact obeys_done _

/-- A response is decoded without a write. If it blames the request, it becomes a failure of that class
exactly if its preview is unbroken. -/
theorem ends_decodeStatus {σ : Type} {wallClock limit : Nat} {method : String} {response : Response}
    {t t' : Instant} {s s' : σ} {ws : List (Write σ)} {e : Error}
    (h : Ends (StatusHandler.decodeStatus wallClock limit method response) t s ws e t' s') :
    ws = [] ∧ (response.status.BlamesRequest →
      (e.isClientRequestError = true ↔ response.body.Unbroken limit)) := by
  obtain ⟨us, result, t₁, s₁, vs, rfl, hpreview, hend⟩ := (ends_andThen _ _).1 h
  obtain ⟨rfl, hresult⟩ := BodyStream.ends_preview hpreview
  unfold BodyStream.Unbroken
  cases hfault : response.body.previewFault? limit with
  | some fault =>
    rw [hfault] at hresult
    subst hresult
    obtain ⟨rfl, rfl, rfl, rfl⟩ := ends_done.1 hend
    exact ⟨rfl, fun _ => ⟨fun he e' he' => by cases he'; exact he, fun hall => hall e rfl⟩⟩
  | none =>
    rw [hfault] at hresult
    obtain ⟨text, rfl⟩ := hresult
    obtain ⟨rfl, rfl, rfl, rfl⟩ := ends_done.1 hend
    refine ⟨rfl, fun hblames => ⟨fun _ e' he' => ?_, fun _ => isClientRequestError_status.2 hblames⟩⟩
    cases he'

end ResilientClient
