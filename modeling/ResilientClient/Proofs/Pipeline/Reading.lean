/-
Reading bodies. A reader with a limit goes over the items of a body in order and stops at the first failure, or at
the chunk with which the size exceeds the limit, whichever comes first (`Reads`). It waits as long as the part that
it has read waits, and nothing behind that part matters (`readAll_of_reads`). So it gets the whole content exactly if
no failure is among the items and the content is within the limit, however it is cut into chunks, and what it has
gathered can be read again under the same limit (`reading_up_to_limit`).
-/
import ResilientClient.Pipeline.Execute
import ResilientClient.Proofs.Fiber.Path

open ResilientClient.Fiber

namespace ResilientClient

namespace BodyStream

/-! ## What is in a body -/

/-- The chunks of a body. -/
def chunks (body : BodyStream) : List Bytes :=
  body.filterMap fun
    | .chunk bytes => some bytes
    | _ => none

/-- The bytes of a body. -/
def content (body : BodyStream) : Bytes := body.chunks.flatten

/-- No item of a body is a failure. -/
def Smooth (body : BodyStream) : Prop := ∀ e, .failure e ∉ body

/-- Waits as long as a body waits. -/
def linger {σ : Type} : BodyStream → Fiber σ Unit
  | [] => .done ()
  | .pause d :: rest => (Fiber.sleep d).andThen fun _ => linger rest
  | .chunk _ :: rest => linger rest
  | .failure _ :: rest => linger rest

/-- The body of these bytes in one piece. -/
def ofBytes (bytes : Bytes) : BodyStream := if bytes.isEmpty then [] else [.chunk bytes]

/-- A reader with a limit goes over a part of a body and comes to a result. -/
inductive Reads (limit : Nat) : BodyStream → BodyStream → Except Error Bytes → Prop
  /-- All of it is within the limit. -/
  | whole {body : BodyStream} : body.Smooth → body.content.length ≤ limit →
      Reads limit body body (.ok body.content)
  /-- A failure comes first. -/
  | failed {before behind : BodyStream} {e : Error} : before.Smooth → before.content.length ≤ limit →
      Reads limit (before ++ .failure e :: behind) before (.error e)
  /-- A chunk with which the limit is exceeded comes first. -/
  | tooLarge {before behind : BodyStream} {bytes : Bytes} : before.Smooth → before.content.length ≤ limit →
      limit < before.content.length + bytes.length →
      Reads limit (before ++ .chunk bytes :: behind) before
        (.error (.bodyTooLarge limit (before.content.length + bytes.length)))

section Content

variable {body before : BodyStream} {bytes : Bytes} {d : Duration} {e : Error}

theorem content_append (before behind : BodyStream) :
    content (before ++ behind) = content before ++ content behind := by
  simp [content, chunks]

theorem smooth_nil : Smooth [] := fun _ => List.not_mem_nil

theorem smooth_cons_iff {item : BodyItem} {rest : BodyStream} :
    Smooth (item :: rest) ↔ (∀ e, item ≠ .failure e) ∧ Smooth rest := by
  simp only [Smooth, List.mem_cons, not_or, forall_and]
  exact and_congr_left' (forall_congr' fun e => ne_comm)

theorem Smooth.concat {item : BodyItem} (h : Smooth before) (hitem : ∀ e, item ≠ .failure e) :
    Smooth (before ++ [item]) := by
  intro e hmem
  rcases List.mem_append.1 hmem with hbefore | hlast
  · exact h e hbefore
  · exact hitem e (List.mem_singleton.1 hlast).symm

theorem smooth_ofBytes (bytes : Bytes) : Smooth (ofBytes bytes) := by
  unfold ofBytes
  split <;> simp [Smooth]

@[simp] theorem content_ofBytes (bytes : Bytes) : content (ofBytes bytes) = bytes := by
  unfold ofBytes
  split
  · simp_all [content, chunks]
  · simp [content, chunks]

@[simp] theorem linger_ofBytes {σ : Type} (bytes : Bytes) : (linger (ofBytes bytes) : Fiber σ Unit) = .done () := by
  unfold ofBytes
  split <;> rfl

end Content

/-! ## Reading -/

section Reading

variable {σ : Type} {limit : Nat} {body read : BodyStream} {result : Except Error Bytes}

theorem readBehind_append {before : BodyStream} (hsmooth : before.Smooth) (rest : BodyStream) :
    ∀ {held : List Bytes} {size : Nat}, size + before.content.length ≤ limit →
      (readBehind limit held size (before ++ rest) : Fiber σ (Except Error Bytes)) =
        (linger before).andThen fun _ =>
          readBehind limit (before.chunks.reverse ++ held) (size + before.content.length) rest := by
  induction before with
  | nil => intro held size _; rfl
  | cons item before ih =>
    intro held size hfits
    obtain ⟨hitem, hbefore⟩ := smooth_cons_iff.1 hsmooth
    cases item with
    | failure e => exact absurd rfl (hitem e)
    | pause d =>
      simp only [List.cons_append, readBehind, linger, andThen_assoc]
      congr 1
      funext _
      exact ih hbefore hfits
    | chunk bytes =>
      have hcontent : content (.chunk bytes :: before) = bytes ++ content before := rfl
      rw [hcontent, List.length_append] at hfits ⊢
      have hnot : ¬ limit < size + bytes.length := by omega
      simp only [List.cons_append, readBehind, linger, if_neg hnot]
      rw [ih hbefore (by omega), Nat.add_assoc]
      simp [chunks]

/-- Each body is read up to some item, with some result. -/
theorem exists_reads (limit : Nat) (body : BodyStream) : ∃ read result, Reads limit body read result := by
  suffices hall : ∀ before : BodyStream, before.Smooth → before.content.length ≤ limit →
      ∃ read result, Reads limit (before ++ body) read result from hall [] smooth_nil (Nat.zero_le _)
  induction body with
  | nil =>
    intro before hsmooth hfits
    rw [List.append_nil]
    exact ⟨_, _, .whole hsmooth hfits⟩
  | cons item rest ih =>
    intro before hsmooth hfits
    have hgoOn (hitem : ∀ e, item ≠ .failure e) (hnext : (content (before ++ [item])).length ≤ limit) :
        ∃ read result, Reads limit (before ++ item :: rest) read result := by
      rw [List.append_cons]
      exact ih _ (hsmooth.concat hitem) hnext
    cases item with
    | failure e => exact ⟨_, _, .failed hsmooth hfits⟩
    | pause d => exact hgoOn nofun (by simpa [content, chunks] using hfits)
    | chunk bytes =>
      by_cases hlarge : limit < before.content.length + bytes.length
      · exact ⟨_, _, .tooLarge hsmooth hfits hlarge⟩
      · exact hgoOn nofun (by simpa [content_append, content, chunks] using hlarge)

/-- Behind items without a failure and within the limit, a reader goes on with their chunks. -/
theorem readAll_append {before : BodyStream} (hsmooth : before.Smooth) (hfits : before.content.length ≤ limit)
    (rest : BodyStream) : (readAll limit (before ++ rest) : Fiber σ (Except Error Bytes)) =
      (linger before).andThen fun _ => readBehind limit before.chunks.reverse before.content.length rest := by
  have happend : (readBehind limit [] 0 (before ++ rest) : Fiber σ (Except Error Bytes)) =
      (linger before).andThen fun _ =>
        readBehind limit (before.chunks.reverse ++ []) (0 + before.content.length) rest :=
    readBehind_append hsmooth rest (by simpa using hfits)
  simpa [readAll] using happend

/-- A reader waits with the part that it reads, and has its result then; what is behind that part has no say. -/
theorem readAll_of_reads (h : Reads limit body read result) :
    (body.readAll limit : Fiber σ (Except Error Bytes)) = (linger read).andThen fun _ => .done result := by
  cases h with
  | whole hsmooth hfits =>
    have hwhole := readAll_append (σ := σ) hsmooth hfits []
    rw [List.append_nil] at hwhole
    rw [hwhole]
    simp [readBehind, content]
  | failed hsmooth hfits => exact readAll_append hsmooth hfits _
  | tooLarge hsmooth hfits hlarge =>
    rw [readAll_append hsmooth hfits]
    simp only [readBehind, if_pos hlarge]

theorem run_readAll (h : Reads limit body read result) (t : Instant) (s : σ) :
    ((body.readAll limit : Fiber σ (Except Error Bytes)).run t s).1 = result := by
  rw [readAll_of_reads h, run_andThen]
  rfl

theorem Reads.of_ok {bytes : Bytes} (h : Reads limit body read (.ok bytes)) :
    body.Smooth ∧ body.content.length ≤ limit ∧ bytes = body.content := by
  cases h with
  | whole hsmooth hfits => exact ⟨hsmooth, hfits, rfl⟩

/-- Of a body without a failure a reader gets everything, or the size is what stops it. -/
theorem Reads.of_smooth (hsmooth : body.Smooth) (h : Reads limit body read result) :
    (body.content.length ≤ limit ∧ read = body ∧ result = .ok body.content) ∨
      (limit < body.content.length ∧ ∃ actual, result = .error (.bodyTooLarge limit actual)) := by
  cases h with
  | whole _ hfits => exact .inl ⟨hfits, rfl, rfl⟩
  | @failed before behind e _ _ => exact absurd (List.mem_append_right _ List.mem_cons_self) (hsmooth e)
  | @tooLarge before behind bytes _ _ hlarge =>
    have hcontent : content (.chunk bytes :: behind) = bytes ++ content behind := rfl
    refine .inr ⟨?_, _, rfl⟩
    rw [content_append, hcontent, List.length_append, List.length_append]
    omega

/-- A reader has a success exactly if it comes upon no failure and stays within the limit. -/
theorem run_readAll_eq_ok_iff {bytes : Bytes} (t : Instant) (s : σ) :
    ((body.readAll limit : Fiber σ (Except Error Bytes)).run t s).1 = .ok bytes ↔
      body.Smooth ∧ body.content.length ≤ limit ∧ bytes = body.content := by
  constructor
  · intro hok
    obtain ⟨read, result, h⟩ := exists_reads limit body
    rw [run_readAll h] at hok
    exact Reads.of_ok (hok ▸ h)
  · rintro ⟨hsmooth, hfits, rfl⟩
    exact run_readAll (.whole hsmooth hfits) t s

/-- Bytes within the limit are read at once. -/
theorem readAll_ofBytes {bytes : Bytes} (hfits : bytes.length ≤ limit) :
    (readAll limit (ofBytes bytes) : Fiber σ (Except Error Bytes)) = .done (.ok bytes) := by
  have hwhole : Reads limit (ofBytes bytes) (ofBytes bytes) (.ok (content (ofBytes bytes))) :=
    .whole (smooth_ofBytes bytes) (by rwa [content_ofBytes])
  rw [readAll_of_reads hwhole, linger_ofBytes, content_ofBytes, done_andThen]

end Reading

/-! ## Reading again -/

/-- A response with its body in one piece has what a reader of the body gets. -/
theorem aggregate_of_reads {ε : Type} {limit : Nat} {response : Response} {read : BodyStream}
    {result : Except Error Bytes} (h : Reads limit response.body read result) :
    (Pipeline.aggregate limit response : Stage ε Outcome) = (linger read).andThen fun _ =>
      .done (result.map fun bytes => { response with body := ofBytes bytes }) := by
  unfold Pipeline.aggregate
  rw [readAll_of_reads h, andThen_assoc]
  congr 1
  funext _
  cases result <;> rfl

/-- A reader with a limit goes over a part of the body, as `Reads` says, and does nothing else than to wait with that
part and to have the result. It succeeds exactly if no item is a failure and all chunks together are within the limit,
with all their bytes. A response whose body has been read so has a body that is read at once under the same limit, with
the same bytes. -/
theorem reading_up_to_limit {σ ε : Type} (limit : Nat) (body : BodyStream) :
    (∃ read result, Reads limit body read result) ∧
    (∀ read result, Reads limit body read result →
      (body.readAll limit : Fiber σ (Except Error Bytes)) = (linger read).andThen fun _ => .done result) ∧
    (∀ (t : Instant) (s : σ) (bytes : Bytes),
      ((body.readAll limit : Fiber σ (Except Error Bytes)).run t s).1 = .ok bytes ↔
        body.Smooth ∧ body.content.length ≤ limit ∧ bytes = body.content) ∧
    (∀ (response response' : Response) (t t' : Instant) (s s' : World ε) (ws : List (Write (World ε))),
      response.body = body → Ends (Pipeline.aggregate limit response) t s ws (.ok response') t' s' →
        (response'.body.readAll limit : Fiber σ (Except Error Bytes)) = .done (.ok body.content)) := by
  refine ⟨exists_reads limit body, fun read result h => readAll_of_reads h,
    fun t s bytes => run_readAll_eq_ok_iff t s, ?_⟩
  rintro response response' t t' s s' ws rfl hends
  obtain ⟨read, result, h⟩ := exists_reads limit response.body
  rw [aggregate_of_reads h, ends_andThen] at hends
  obtain ⟨us, _, t₁, s₁, vs, -, -, hdone⟩ := hends
  obtain ⟨-, hresult, -, -⟩ := ends_done.1 hdone
  cases result with
  | error e => cases hresult
  | ok bytes =>
    cases hresult
    obtain ⟨-, hfits, rfl⟩ := h.of_ok
    exact readAll_ofBytes hfits

/-- Four bytes in two chunks, with a wait and an empty chunk between them. -/
def fourBytes : BodyStream := [.chunk [1, 2], .pause (.ofMillis 5), .chunk [], .chunk [3, 4]]

/-- What comes behind the four bytes: one more, and then a failure. -/
def oneMore : BodyStream := [.chunk [5], .failure (.timeout (.ofMillis 1))]

/-- Under a limit of four bytes they are read as a whole, and with one byte more the failure behind it is not
reached. -/
theorem reading_up_to_limit_fourBytes :
    ((fourBytes.readAll 4 : Fiber Unit (Except Error Bytes)) =
      (linger fourBytes).andThen fun _ => .done (.ok [1, 2, 3, 4])) ∧
    (readAll 4 (fourBytes ++ oneMore) : Fiber Unit (Except Error Bytes)) =
      (linger fourBytes).andThen fun _ => .done (.error (.bodyTooLarge 4 5)) := by
  have hsmooth : fourBytes.Smooth := by simp [Smooth, fourBytes]
  have hreads (body : BodyStream) := (reading_up_to_limit (σ := Unit) (ε := Unit) 4 body).2.1
  exact ⟨hreads fourBytes _ _ (.whole hsmooth (by decide)),
    hreads (fourBytes ++ oneMore) _ _ (.tooLarge hsmooth (by decide) (by decide))⟩

end BodyStream

end ResilientClient
