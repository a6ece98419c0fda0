/-
The size of previews. The limit of a preview is checked on the bytes of the body, and what is kept is the text that
they are read as (`preview_of_smooth`). So a preview stays within its limit exactly if it still does with the surplus
of those segments of the body that are no characters, and it has never more than three times as many bytes
(`preview_size`).
-/
import ResilientClient.Proofs.Pipeline.Reading
import ResilientClient.Proofs.Text.Lossy
import ResilientClient.StatusHandler

open ResilientClient.Fiber ResilientClient.Text.Utf8

namespace ResilientClient

namespace BodyStream

/-! ## What is kept of a body -/

/-- What is kept of a body without a failure. -/
def kept (limit : Nat) (body : BodyStream) : String :=
  if body.content.length ≤ limit then String.ofList (decodeLossy body.content) else tooLargeText

section Kept

variable {σ : Type} {limit : Nat} {body read : BodyStream} {result : Except Error Bytes} {segments : List Segment}

/-- A body without a failure is waited for as far as it is read, and then has its preview. -/
theorem preview_of_smooth (hsmooth : body.Smooth) (h : Reads limit body read result) :
    (body.preview limit : Fiber σ (Except Error String)) =
      (linger read).andThen fun _ => .done (.ok (kept limit body)) := by
  unfold preview
  rw [readAll_of_reads h, andThen_assoc]
  congr 1
  funext _
  unfold kept
  rcases h.of_smooth hsmooth with ⟨hfits, -, rfl⟩ | ⟨hlarge, actual, rfl⟩
  · rw [if_pos hfits]
    rfl
  · rw [if_neg (by omega)]
    rfl

/-- A text within the limit is kept as it is. -/
theorem kept_ofText {text : String} (hcontent : body.content = Bytes.ofText text)
    (hfits : body.content.length ≤ limit) : kept limit body = text := by
  rw [kept, if_pos hfits, hcontent, decodeLossy_ofText, String.ofList_toList]

theorem utf8ByteSize_kept_le (limit : Nat) (body : BodyStream) :
    (kept limit body).utf8ByteSize ≤ max (3 * limit) tooLargeText.utf8ByteSize := by
  unfold kept
  split
  · obtain ⟨segments, hsegments, hread⟩ := exists_splits body.content
    have hsurplus := hsegments.surplus_le
    rw [hread, hsegments.utf8ByteSize_eq]
    omega
  · exact le_max_right _ _

theorem utf8ByteSize_kept_le_iff (hsegments : Splits body.content segments)
    (hremark : tooLargeText.utf8ByteSize ≤ limit) :
    (kept limit body).utf8ByteSize ≤ limit ↔
      (body.content.length ≤ limit → body.content.length + surplus segments ≤ limit) := by
  unfold kept
  split
  · rename_i hfits
    rw [hsegments.decodeLossy_eq, hsegments.utf8ByteSize_eq]
    exact (imp_iff_right hfits).symm
  · rename_i hlarge
    exact iff_of_true hremark fun hfits => absurd hfits hlarge

end Kept

end BodyStream

namespace StatusHandler

open BodyStream

variable {σ : Type}

theorem decode_default (wallClock : Nat) :
    (default wallClock : StatusHandler σ).decode = decodeStatus wallClock previewLimit := rfl

theorem decode_of_smooth (wallClock : Nat) {limit : Nat} (method : String) {response : Response} {read : BodyStream}
    {result : Except Error Bytes} (hsmooth : response.body.Smooth) (h : Reads limit response.body read result) :
    (decodeStatus wallClock limit method response : Fiber σ Error) = (linger read).andThen fun _ =>
      .done (.status method response.status (kept limit response.body) response.contentType?
        (response.retryHint? wallClock)) := by
  unfold decodeStatus
  rw [preview_of_smooth hsmooth h, andThen_assoc]
  rfl

/-! ## Stray bytes -/

/-- Bytes of which none begins a character. -/
def strayBytes (n : Nat) : Bytes := List.replicate n 0xFF

theorem splits_strayBytes (n : Nat) : Splits (strayBytes n) (List.replicate n (.broken [0xFF])) := by
  have hnot : ¬ Begins [0xFF] := fun h => absurd h.first (by decide)
  induction n with
  | zero => exact .nil
  | succ n ih => exact .broken (unreadable_one (by decide) (stuck_of_not_begins hnot)) ih

/-- Each stray byte within the limit becomes a character of three bytes. -/
theorem decode_strayBytes (wallClock : Nat) {limit n : Nat} (method : String) (status : Http.Status)
    (hfits : n ≤ limit) : ∃ preview, preview.utf8ByteSize = 3 * n ∧
      (decodeStatus wallClock limit method (.ofElements status [strayBytes n]) : Fiber σ Error) =
        .done (.status method status preview none none) := by
  have hsmooth : (Response.ofElements status [strayBytes n]).body.Smooth := by simp [Smooth, Response.ofElements]
  have hcontent : (Response.ofElements status [strayBytes n]).body.content = strayBytes n := List.append_nil _
  have hlength : (strayBytes n).length = n := List.length_replicate
  have hwhole : (Response.ofElements status [strayBytes n]).body.content.length ≤ limit := by rwa [hcontent, hlength]
  have hsurplus : surplus (List.replicate n (.broken [0xFF])) = 2 * n := by
    have hone : Segment.surplus (.broken [0xFF]) = 2 := rfl
    rw [surplus, List.map_replicate, hone, List.sum_replicate, smul_eq_mul, Nat.mul_comm]
  have hsplits := splits_strayBytes n
  refine ⟨_, ?_, decode_of_smooth wallClock method hsmooth (.whole hsmooth hwhole)⟩
  rw [kept, if_pos hwhole, hcontent, hsplits.decodeLossy_eq, hsplits.utf8ByteSize_eq, hlength, hsurplus]
  omega

/-! ## The size of a preview -/

/-- The default handler makes a response whose body does not fail a failure of its status. The preview in it is what
the segments of the body are read as, or a remark if the body is too large. The preview is at most three times as large
as its limit, and it is within its limit exactly if the body is too large or stays within the limit together with the
surplus of its segments. -/
theorem preview_size (wallClock : Nat) (method : String) (response : Response) (hsmooth : response.body.Smooth) :
    ∃ read result segments preview,
      Reads previewLimit response.body read result ∧ Splits response.body.content segments ∧
      ((default wallClock).decode method response : Fiber σ Error) = ((linger read).andThen fun _ =>
        .done (.status method response.status preview response.contentType? (response.retryHint? wallClock))) ∧
      preview = (if response.body.content.length ≤ previewLimit then String.ofList (segments.map Segment.read)
        else tooLargeText) ∧
      preview.utf8ByteSize ≤ 3 * previewLimit ∧
      (preview.utf8ByteSize ≤ previewLimit ↔
        (response.body.content.length ≤ previewLimit →
          response.body.content.length + surplus segments ≤ previewLimit)) := by
  obtain ⟨read, result, hreads⟩ := exists_reads previewLimit response.body
  obtain ⟨segments, hsegments, hread⟩ := exists_splits response.body.content
  refine ⟨read, result, segments, kept previewLimit response.body, hreads, hsegments,
    decode_of_smooth wallClock method hsmooth hreads, ?_, utf8ByteSize_kept_le _ _,
    utf8ByteSize_kept_le_iff hsegments (by decide)⟩
  unfold kept
  rw [hread]

/-- A text that is cut inside a character, with a stray byte behind it. -/
def brokenOff : Response := .ofElements ⟨500⟩ [[0x63, 0x61, 0x66, 0xC3], [0xA9, 0xFF]]

/-- A character that the chunks cut in two is read as it is, and a stray byte as a character of three bytes. -/
theorem preview_size_brokenOff :
    ((default 0).decode "Api#get()" brokenOff : Fiber Unit Error) =
      .done (.status "Api#get()" ⟨500⟩ "café\uFFFD" none none) := by
  have hsmooth : brokenOff.body.Smooth := by simp [Smooth, brokenOff, Response.ofElements]
  have hfits : brokenOff.body.content.length ≤ previewLimit := by decide
  obtain ⟨read, result, segments, preview, hreads, hsegments, hdecode, hpreview, -, -⟩ :=
    preview_size (σ := Unit) 0 "Api#get()" brokenOff hsmooth
  have hread : read = brokenOff.body := by
    rcases hreads.of_smooth hsmooth with ⟨-, hread, -⟩ | ⟨hlarge, -⟩
    · exact hread
    · omega
  rw [if_pos hfits, ← hsegments.decodeLossy_eq] at hpreview
  rw [hdecode, hpreview, hread]
  rfl

/-- The limit does not hold what stray bytes within it are read as. -/
theorem stray_bytes_outgrow_limit :
    (∃ preview, ((default 0).decode "Api#get()" (.ofElements ⟨500⟩ [strayBytes 2731]) : Fiber Unit Error) =
      .done (.status "Api#get()" ⟨500⟩ preview none none) ∧ preview.utf8ByteSize = 8193) ∧
    ¬ ∀ (wallClock : Nat) (method : String) (response : Response) (t : Instant) (preview : String),
      (default wallClock : StatusHandler Unit).handles response.status = true → response.body.Smooth →
      (((default wallClock).decode method response : Fiber Unit Error).run t ()).1 =
        .status method response.status preview response.contentType? (response.retryHint? wallClock) →
      preview.utf8ByteSize ≤ previewLimit := by
  obtain ⟨preview, hsize, hdecode⟩ :=
    decode_strayBytes (σ := Unit) 0 "Api#get()" ⟨500⟩ (by decide : 2731 ≤ previewLimit)
  rw [← decode_default] at hdecode
  refine ⟨⟨preview, hdecode, hsize⟩, fun hall => ?_⟩
  have hsmooth : (Response.ofElements ⟨500⟩ [strayBytes 2731]).body.Smooth := by simp [Smooth, Response.ofElements]
  have hle := hall 0 "Api#get()" _ 0 preview rfl hsmooth (by rw [hdecode]; rfl)
  rw [hsize] at hle
  exact absurd hle (by decide)

end StatusHandler

end ResilientClient
