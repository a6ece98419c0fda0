/-
Expansion of templates for fields that may repeat. Only a source that is one placeholder and nothing else, bound to
values, expands to one text per value; every other source expands to the one text of its joined expansion
(`expandValues_of_sole`, `expandValues_of_not_sole`). So in both cases the texts, joined by commas, are the joined
expansion (`expansions_agree`).
-/
import ResilientClient.Proofs.Template.Division

namespace ResilientClient.Template

/-- The source is a placeholder and nothing else, and these values are bound to its name. -/
def Sole (source : String) (bindings : Bindings) (values : List String) : Prop :=
  ∃ inner, Occurs source.toList [] inner [] ∧ bindings.values? (String.ofList (Text.trim inner)) = some values

/-- A source has a placeholder as its only piece exactly if it is this placeholder in its braces. -/
theorem divide_eq_span_iff {source inner : List Char} : divide source = [.span inner] ↔ Occurs source [] inner [] := by
  constructor
  · intro h
    have hspans := (divides_iff.2 h.symm).spans [] inner []
    exact hspans.2 ⟨[], [], rfl, rfl, rfl⟩
  · rintro ⟨hinner, rfl⟩
    rw [List.nil_append, divide_enclosed hinner, divides_nil_iff.1 (divides_iff.2 rfl)]

theorem chunks_eq_placeholder_iff {source name : String} : (compile source).chunks = [.placeholder name] ↔
    ∃ inner, Occurs source.toList [] inner [] ∧ String.ofList (Text.trim inner) = name := by
  have hchunks : (compile source).chunks = (divide source.toList).map Piece.chunk := chunksOf_eq [] source.toList
  rw [hchunks, List.map_eq_singleton_iff]
  constructor
  · rintro ⟨piece, hdivide, hpiece⟩
    cases piece with
    | text chars => cases hpiece
    | span inner => exact ⟨inner, divide_eq_span_iff.1 hdivide, Chunk.placeholder.inj hpiece⟩
  · rintro ⟨inner, hsole, rfl⟩
    exact ⟨.span inner, divide_eq_span_iff.2 hsole, rfl⟩

section Expansions

variable {source : String} {bindings : Bindings} {values : List String}

/-- A source with the values of its only placeholder. -/
theorem Sole.exists_chunk (h : Sole source bindings values) :
    ∃ name, (compile source).chunks = [.placeholder name] ∧ bindings.values? name = some values := by
  obtain ⟨inner, hoccurs, hvalues⟩ := h
  exact ⟨_, chunks_eq_placeholder_iff.2 ⟨inner, hoccurs, rfl⟩, hvalues⟩

theorem expandValues_of_sole (encoding : Encoding) (h : Sole source bindings values) :
    (compile source).expandValues bindings encoding = values.map encoding.apply := by
  obtain ⟨name, hchunks, hvalues⟩ := h.exists_chunk
  simp only [expandValues, hchunks, hvalues]

theorem expand_of_sole (encoding : Encoding) (h : Sole source bindings values) :
    (compile source).expand bindings encoding = Text.join "," (values.map encoding.apply) := by
  obtain ⟨name, hchunks, hvalues⟩ := h.exists_chunk
  rw [expand, hchunks, List.map_singleton, Text.join_singleton]
  simp only [Chunk.expand, hvalues]

theorem expandValues_of_not_sole (encoding : Encoding) (h : ∀ values, ¬ Sole source bindings values) :
    (compile source).expandValues bindings encoding = [(compile source).expand bindings encoding] := by
  unfold expandValues
  split
  · rename_i name hchunks
    obtain ⟨inner, hoccurs, rfl⟩ := chunks_eq_placeholder_iff.1 hchunks
    split
    · rename_i values hvalues
      exact absurd ⟨inner, hoccurs, hvalues⟩ (h values)
    · rfl
  · rfl

end Expansions

/-- The texts for a field that may repeat, joined by commas, are the joined expansion. They are other than one text
only if the whole source is a bound placeholder, and then they are its values, one text for each. -/
theorem expansions_agree (source : String) (bindings : Bindings) (encoding : Encoding) :
    Text.join "," ((compile source).expandValues bindings encoding) = (compile source).expand bindings encoding ∧
    (((compile source).expandValues bindings encoding).length ≠ 1 ↔
      ∃ values, Sole source bindings values ∧ values.length ≠ 1) ∧
    ∀ values, Sole source bindings values →
      (compile source).expandValues bindings encoding = values.map encoding.apply := by
  refine ⟨?_, ?_, fun values h => expandValues_of_sole encoding h⟩ <;>
    by_cases h : ∃ values, Sole source bindings values
  · obtain ⟨values, h⟩ := h
    rw [expandValues_of_sole encoding h, expand_of_sole encoding h]
  · rw [expandValues_of_not_sole encoding (not_exists.1 h), Text.join_singleton]
  · obtain ⟨values, h⟩ := h
    have honly : ∀ values', Sole source bindings values' → values'.length = values.length := fun values' h' => by
      have hsame := (expandValues_of_sole encoding h').symm.trans (expandValues_of_sole encoding h)
      simpa using congrArg List.length hsame
    rw [expandValues_of_sole encoding h, List.length_map]
    exact ⟨fun hlength => ⟨values, h, hlength⟩, fun ⟨values', h', hlength⟩ => honly values' h' ▸ hlength⟩
  · rw [expandValues_of_not_sole encoding (not_exists.1 h)]
    exact iff_of_false (by simp) fun ⟨values, hsole, _⟩ => h ⟨values, hsole⟩

/-- Each value is encoded for itself, so the comma in a value is not one of those that join the values. -/
theorem expansions_agree_tags :
    Sole "\x7b tags \x7d" [("tags", ["a,b", "c d"])] ["a,b", "c d"] ∧
    (compile "\x7b tags \x7d").expandValues [("tags", ["a,b", "c d"])] .percent = ["a%2Cb", "c%20d"] ∧
    (compile "\x7b tags \x7d").expand [("tags", ["a,b", "c d"])] .percent = "a%2Cb,c%20d" := by
  have hinner : IsInner " tags ".toList := by simp [IsInner, openBrace, closeBrace]
  have hsole : Sole "\x7b tags \x7d" [("tags", ["a,b", "c d"])] ["a,b", "c d"] :=
    ⟨" tags ".toList, ⟨hinner, by decide⟩, by decide⟩
  obtain ⟨hjoin, -, hvalues⟩ := expansions_agree "\x7b tags \x7d" [("tags", ["a,b", "c d"])] .percent
  have hencoded : ["a,b", "c d"].map Encoding.percent.apply = ["a%2Cb", "c%20d"] := by decide +kernel
  have hrepeated := (hvalues _ hsole).trans hencoded
  exact ⟨hsole, hrepeated, by rw [← hjoin, hrepeated]; decide⟩

end ResilientClient.Template
