/-
Expansion of templates. A placeholder without a value is written back as its name in braces, so without any
values a template expands to its source less the white space around the names; it is the source itself exactly
if no name has white space around it (`expand_unbound`).
-/
import ResilientClient.Proofs.Template.Division
import ResilientClient.Proofs.Text.Trimming
import ResilientClient.Proofs.Text.Written

namespace ResilientClient.Template

/-! ## Placeholders without values -/

/-- A piece without a value, as it is written back. -/
def Piece.writtenBack : Piece → List Char
  | .text chars => chars
  | .span inner => enclosed (Text.trim inner)

theorem toList_braced (inner : List Char) : (braced (String.ofList inner)).toList = enclosed inner := by
  simp [braced, enclosed]

/-- The expansion of a piece whose placeholder, if it is one, is unbound. -/
theorem toList_expand_chunk {piece : Piece} {bindings : Bindings} (encoding : Encoding)
    (hunbound : ∀ name, piece.chunk.name? = some name → bindings.values? name = none) :
    (piece.chunk.expand bindings encoding).toList = piece.writtenBack := by
  cases piece with
  | text chars => exact String.toList_ofList
  | span inner =>
    simp only [Piece.chunk, Chunk.expand, hunbound _ rfl]
    exact toList_braced _

/-- Without values for its placeholders a template is written back piece by piece. -/
theorem toList_expand_of_unbound {t : Template} {pieces : List Piece} {bindings : Bindings} (encoding : Encoding)
    (hchunks : t.chunks = pieces.map Piece.chunk)
    (hunbound : ∀ name ∈ t.placeholders, bindings.values? name = none) :
    (t.expand bindings encoding).toList = pieces.flatMap Piece.writtenBack := by
  unfold expand
  rw [Text.toList_join_empty, hchunks, List.flatMap_map, List.flatMap_map]
  refine List.flatMap_congr fun piece hpiece => toList_expand_chunk encoding fun name hname => hunbound name ?_
  exact List.mem_filterMap.2 ⟨piece.chunk, hchunks ▸ List.mem_map_of_mem hpiece, hname⟩

/-! ## White space around names -/

theorem writtenBack_sublist (piece : Piece) : piece.writtenBack.Sublist piece.source := by
  cases piece with
  | text chars => exact .refl _
  | span inner => exact ((trims_trimmed Text.isBlank inner).sublist.append_right _).cons_cons _

/-- Pieces are written back as they stand in the source exactly if each of them is: none of them gets longer. -/
theorem flatMap_writtenBack_eq_iff (pieces : List Piece) :
    pieces.flatMap Piece.writtenBack = pieces.flatMap Piece.source ↔
      ∀ piece ∈ pieces, piece.writtenBack = piece.source := by
  induction pieces with
  | nil => simp
  | cons piece pieces ih =>
    rw [List.forall_mem_cons, ← ih, List.flatMap_cons, List.flatMap_cons]
    constructor
    · intro h
      have hpiece := (writtenBack_sublist piece).length_le
      have hpieces := (List.Sublist.flatMap_right pieces fun piece _ => writtenBack_sublist piece).length_le
      have hlength := congrArg List.length h
      rw [List.length_append, List.length_append] at hlength
      exact List.append_inj h (by omega)
    · rintro ⟨hpiece, hpieces⟩
      rw [hpiece, hpieces]

theorem writtenBack_eq_iff (piece : Piece) :
    piece.writtenBack = piece.source ↔ ∀ inner, piece = .span inner → Text.trim inner = inner := by
  cases piece with
  | text chars => exact iff_of_true rfl nofun
  | span inner => simp [Piece.writtenBack, Piece.source, enclosed]

/-- Without any values a template is written back piece by piece, and this is its source exactly if there is no
white space around what stands between the braces of its spans. -/
theorem expand_unbound (source : String) (encoding : Encoding) :
    (∃ pieces, Divides pieces source.toList ∧
      ((compile source).expand [] encoding).toList = pieces.flatMap Piece.writtenBack) ∧
    ((compile source).expand [] encoding = source ↔
      ∀ before inner behind, Occurs source.toList before inner behind → Text.trim inner = inner) := by
  have hchunks : (compile source).chunks = (divide source.toList).map Piece.chunk := chunksOf_eq [] source.toList
  have hdivides : Divides (divide source.toList) source.toList := divides_iff.2 rfl
  have hback := toList_expand_of_unbound encoding hchunks fun name _ => (rfl : Bindings.values? [] name = none)
  refine ⟨⟨_, hdivides, hback⟩, ?_⟩
  have hsame : (compile source).expand [] encoding = source ↔
      ∀ piece ∈ divide source.toList, piece.writtenBack = piece.source := by
    rw [← String.toList_inj, hback, ← flatMap_writtenBack_eq_iff, hdivides.whole]
  rw [hsame]
  constructor
  · intro h before inner behind hoccurs
    obtain ⟨left, right, hpieces, -, -⟩ := (hdivides.spans before inner behind).1 hoccurs
    exact (writtenBack_eq_iff _).1 (h (.span inner) (by simp [hpieces])) inner rfl
  · intro h piece hpiece
    refine (writtenBack_eq_iff piece).2 ?_
    rintro inner rfl
    obtain ⟨left, right, hpieces⟩ := List.append_of_mem hpiece
    exact h _ inner _ ((hdivides.spans _ inner _).2 ⟨left, right, hpieces, rfl, rfl⟩)

/-- White space around a name is lost. -/
theorem blanks_not_written_back : (compile "\x7b a \x7d").expand [] .verbatim = "\x7ba\x7d" ∧
    ¬ ∀ (source : String) (encoding : Encoding), (compile source).expand [] encoding = source := by
  have hexpand : (compile "\x7b a \x7d").expand [] .verbatim = "\x7ba\x7d" := by decide +kernel
  refine ⟨hexpand, fun hall => ?_⟩
  rw [hall] at hexpand
  exact absurd hexpand (by decide)

end ResilientClient.Template
