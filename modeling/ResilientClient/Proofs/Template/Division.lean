/-
The division of a template. A span is a stretch of a source from an opening brace to the next closing one, with
at least one character and no brace in between. Spans do not overlap (`occurs_enclosed_iff`), so a source has
exactly one division into its spans and the text around them (`divides_iff`), and its template consists of the
chunks of that division (`compile_eq_iff`).
-/
import ResilientClient.Template
import Mathlib.Data.List.TakeWhile
import Mathlib.Tactic

namespace ResilientClient.Template

/-! ## Spans -/

/-- What may stand between the braces of a placeholder: at least one character, and no brace. -/
def IsInner (inner : List Char) : Prop := inner ≠ [] ∧ ∀ c ∈ inner, c ≠ openBrace ∧ c ≠ closeBrace

/-- A text in braces. -/
def enclosed (inner : List Char) : List Char := openBrace :: (inner ++ [closeBrace])

/-- A span of a source, with what stands before it and behind it. -/
def Occurs (source before inner behind : List Char) : Prop :=
  IsInner inner ∧ source = before ++ (enclosed inner ++ behind)

/-- The text begins with a span. -/
def Begins (text : List Char) : Prop := ∃ inner behind, Occurs text [] inner behind

theorem isBrace_eq_false_iff {c : Char} : isBrace c = false ↔ c ≠ openBrace ∧ c ≠ closeBrace := by
  simp [isBrace]

theorem openBrace_ne_closeBrace : openBrace ≠ closeBrace := by decide

/-- A placeholder is split off exactly where the rest of a span stands. -/
theorem splitPlaceholder_eq_some_iff {text inner behind : List Char} :
    splitPlaceholder text = some (inner, behind) ↔ IsInner inner ∧ text = inner ++ closeBrace :: behind := by
  constructor
  · intro h
    simp only [splitPlaceholder] at h
    have hwhole := List.takeWhile_append_dropWhile (p := (!isBrace ·)) (l := text)
    have hinner : ∀ c ∈ text.takeWhile (!isBrace ·), c ≠ openBrace ∧ c ≠ closeBrace := fun c hc =>
      isBrace_eq_false_iff.1 (by simpa using List.mem_takeWhile_imp hc)
    split at h
    · cases h
    · rename_i c rest hdrop
      split at h
      · rename_i hclose
        cases h
        simp only [Bool.and_eq_true, beq_iff_eq, Bool.not_eq_true', List.isEmpty_eq_false_iff] at hclose
        obtain ⟨rfl, hne⟩ := hclose
        rw [hdrop] at hwhole
        exact ⟨⟨hne, hinner⟩, hwhole.symm⟩
      · cases h
  · rintro ⟨⟨hne, hinner⟩, rfl⟩
    have hplain : ∀ c ∈ inner, (!isBrace c) = true := fun c hc => by
      simp [isBrace_eq_false_iff.2 (hinner c hc)]
    have hclose : isBrace closeBrace = true := by decide
    simp only [splitPlaceholder]
    rw [List.takeWhile_append_of_pos hplain, List.dropWhile_append_of_pos hplain]
    simp [hclose, hne]


section Occurrences

variable {inner rest before found behind : List Char} {c : Char}

theorem enclosed_append (inner behind : List Char) :
    enclosed inner ++ behind = openBrace :: (inner ++ closeBrace :: behind) := by
  simp [enclosed]

theorem enclosed_ne_nil (inner : List Char) : enclosed inner ≠ [] := List.cons_ne_nil _ _

theorem not_occurs_nil : ¬ Occurs [] before inner behind := fun h => by
  simpa [enclosed] using h.2

/-- Spans do not overlap: behind the closing brace of a span a source has the spans of the rest. -/
theorem occurs_enclosed_iff (hinner : IsInner inner) :
    Occurs (enclosed inner ++ rest) before found behind ↔
      (before = [] ∧ found = inner ∧ behind = rest) ∨
        ∃ before', before = enclosed inner ++ before' ∧ Occurs rest before' found behind := by
  constructor
  · rintro ⟨hfound, h⟩
    cases before with
    | nil =>
      rw [List.nil_append, enclosed_append, enclosed_append] at h
      have hsplit := splitPlaceholder_eq_some_iff.2 ⟨hfound, (List.cons.inj h).2⟩
      rw [splitPlaceholder_eq_some_iff.2 ⟨hinner, rfl⟩] at hsplit
      cases hsplit
      exact .inl ⟨rfl, rfl, rfl⟩
    | cons c before =>
      rw [enclosed_append, enclosed_append, List.cons_append] at h
      obtain ⟨rfl, hrest⟩ := List.cons.inj h
      rcases List.append_eq_append_iff.1 hrest with ⟨between, rfl, hclose⟩ | ⟨between, rfl, hopen⟩
      · cases between with
        | nil => exact absurd (List.cons.inj hclose).1.symm openBrace_ne_closeBrace
        | cons d between =>
          obtain ⟨rfl, hbehind⟩ := List.cons.inj hclose
          exact .inr ⟨between, (enclosed_append _ _).symm, hfound, by rw [enclosed_append]; exact hbehind⟩
      · cases between with
        | nil => exact absurd (List.cons.inj hopen).1 openBrace_ne_closeBrace
        | cons d between =>
          obtain ⟨rfl, -⟩ := List.cons.inj hopen
          exact absurd rfl (hinner.2 openBrace (by simp)).1
  · rintro (⟨rfl, rfl, rfl⟩ | ⟨before, rfl, hfound, rfl⟩)
    · exact ⟨hinner, rfl⟩
    · exact ⟨hfound, by rw [List.append_assoc]⟩

/-- A character at which no span begins stands before every span. -/
theorem occurs_cons_iff (hplain : ¬ Begins (c :: rest)) :
    Occurs (c :: rest) before found behind ↔
      ∃ before', before = c :: before' ∧ Occurs rest before' found behind := by
  constructor
  · rintro ⟨hfound, h⟩
    cases before with
    | nil => exact absurd ⟨found, behind, hfound, h⟩ hplain
    | cons d before =>
      obtain ⟨rfl, hrest⟩ := List.cons.inj h
      exact ⟨before, rfl, hfound, hrest⟩
  · rintro ⟨before, rfl, hfound, rfl⟩
    exact ⟨hfound, rfl⟩

end Occurrences

/-! ## Divisions -/

/-- A piece of a source: a stretch of text, or a span. -/
inductive Piece where
  | text (chars : List Char)
  | span (inner : List Char)
deriving DecidableEq, Repr

namespace Piece

/-- A piece as it stands in the source. -/
def source : Piece → List Char
  | .text chars => chars
  | .span inner => enclosed inner

/-- The chunk of a piece. -/
def chunk : Piece → Chunk
  | .text chars => .literal (String.ofList chars)
  | .span inner => .placeholder (String.ofList (Text.trim inner))

/-- What stands between the braces of a span. -/
def inner? : Piece → Option (List Char)
  | .text _ => none
  | .span inner => some inner

def isSpan (piece : Piece) : Bool := piece.inner?.isSome

end Piece

/-- A span is one of the pieces, with pieces of these texts before it and behind it. -/
def Placed (pieces : List Piece) (before inner behind : List Char) : Prop :=
  ∃ left right, pieces = left ++ .span inner :: right ∧ left.flatMap Piece.source = before ∧
    right.flatMap Piece.source = behind

/-- The pieces are the division of a source into its spans and the text around them. -/
structure Divides (pieces : List Piece) (source : List Char) : Prop where
  /-- One after the other the pieces are the source. -/
  whole : pieces.flatMap Piece.source = source
  /-- The spans of the source are the spans among the pieces, in the same places. -/
  spans : ∀ before inner behind, Occurs source before inner behind ↔ Placed pieces before inner behind
  /-- No stretch of text is empty. -/
  filled : .text [] ∉ pieces
  /-- Of two neighbours one is a span. -/
  apart : pieces.IsChain fun piece next => piece.isSpan ∨ next.isSpan

section Pieces

variable {pieces : List Piece} {inner chars before found behind : List Char} {c : Char}

theorem not_placed_nil : ¬ Placed [] before inner behind := by
  rintro ⟨left, right, h, -⟩
  simp at h

theorem placed_span_iff : Placed (.span inner :: pieces) before found behind ↔
    (before = [] ∧ found = inner ∧ behind = pieces.flatMap Piece.source) ∨
      ∃ before', before = enclosed inner ++ before' ∧ Placed pieces before' found behind := by
  constructor
  · rintro ⟨left, right, h, rfl, rfl⟩
    cases left with
    | nil => cases h; exact .inl ⟨rfl, rfl, rfl⟩
    | cons piece left => cases h; exact .inr ⟨_, rfl, left, right, rfl, rfl, rfl⟩
  · rintro (⟨rfl, rfl, rfl⟩ | ⟨_, rfl, left, right, rfl, rfl, rfl⟩)
    · exact ⟨[], pieces, rfl, rfl, rfl⟩
    · exact ⟨.span inner :: left, right, rfl, rfl, rfl⟩

theorem placed_text_iff : Placed (.text chars :: pieces) before found behind ↔
    ∃ before', before = chars ++ before' ∧ Placed pieces before' found behind := by
  constructor
  · rintro ⟨left, right, h, rfl, rfl⟩
    cases left with
    | nil => cases h
    | cons piece left => cases h; exact ⟨_, rfl, left, right, rfl, rfl, rfl⟩
  · rintro ⟨_, rfl, left, right, rfl, rfl, rfl⟩
    exact ⟨.text chars :: left, right, rfl, rfl, rfl⟩

end Pieces

/-! ## The division of a source -/

/-- The pieces with a character of text in front. -/
def putChar (c : Char) : List Piece → List Piece
  | .text chars :: pieces => .text (c :: chars) :: pieces
  | pieces => .text [c] :: pieces

/-- The pieces of a source. -/
def divide (source : List Char) : List Piece :=
  match source with
  | [] => []
  | c :: rest =>
    if c == openBrace then
      match _h : splitPlaceholder rest with
      | some (inner, behind) => .span inner :: divide behind
      | none => putChar c (divide rest)
    else putChar c (divide rest)
termination_by source.length
decreasing_by
  · have := splitPlaceholder_length _h; simp; omega
  · simp
  · simp

section Dividing

variable {pieces : List Piece} {inner before found behind rest : List Char} {c : Char}

theorem source_eq_nil_iff (hfilled : .text [] ∉ pieces) : pieces.flatMap Piece.source = [] ↔ pieces = [] := by
  constructor
  · intro h
    cases pieces with
    | nil => rfl
    | cons piece pieces =>
      have hpiece : piece.source = [] := (List.append_eq_nil_iff.1 h).1
      cases piece with
      | text chars => exact absurd (hpiece ▸ List.mem_cons_self) hfilled
      | span inner => exact absurd hpiece (enclosed_ne_nil inner)
  · rintro rfl
    rfl

theorem placed_span_append_iff : Placed (.span inner :: pieces) (enclosed inner ++ before) found behind ↔
    Placed pieces before found behind := by
  simp [placed_span_iff, enclosed_ne_nil]

theorem source_putChar (c : Char) (pieces : List Piece) :
    (putChar c pieces).flatMap Piece.source = c :: pieces.flatMap Piece.source := by
  unfold putChar
  split <;> rfl

theorem placed_putChar_iff : Placed (putChar c pieces) before found behind ↔
    ∃ before', before = c :: before' ∧ Placed pieces before' found behind := by
  unfold putChar
  split
  · simp only [placed_text_iff]
    constructor
    · rintro ⟨before, rfl, h⟩
      exact ⟨_, rfl, before, rfl, h⟩
    · rintro ⟨_, rfl, before, rfl, h⟩
      exact ⟨before, rfl, h⟩
  · exact placed_text_iff

theorem filled_putChar (h : .text [] ∉ pieces) : .text [] ∉ putChar c pieces := by
  unfold putChar
  split <;> simp_all

theorem apart_putChar (h : pieces.IsChain fun piece next => piece.isSpan ∨ next.isSpan) :
    (putChar c pieces).IsChain fun piece next => piece.isSpan ∨ next.isSpan := by
  unfold putChar
  split
  · exact List.isChain_cons.2 (List.isChain_cons.1 h)
  · rename_i htext
    refine List.isChain_cons.2 ⟨fun next hnext => ?_, h⟩
    cases next with
    | span inner => exact .inr rfl
    | text chars =>
      obtain ⟨rest, rfl⟩ := List.head?_eq_some_iff.1 hnext
      exact absurd rfl (htext chars rest)

theorem divides_nil_iff : Divides pieces [] ↔ pieces = [] := by
  constructor
  · exact fun h => (source_eq_nil_iff h.filled).1 h.whole
  · rintro rfl
    exact ⟨rfl, fun _ _ _ => iff_of_false not_occurs_nil not_placed_nil, List.not_mem_nil, .nil⟩

/-- A division of a source that begins with a span has this span and a division of the rest. -/
theorem divides_enclosed_iff (hinner : IsInner inner) :
    Divides pieces (enclosed inner ++ rest) ↔ ∃ pieces', pieces = .span inner :: pieces' ∧ Divides pieces' rest := by
  constructor
  · intro h
    obtain ⟨left, right, rfl, hleft, hright⟩ := (h.spans [] inner rest).1 ⟨hinner, rfl⟩
    obtain rfl := (source_eq_nil_iff fun hmem => h.filled (List.mem_append_left _ hmem)).1 hleft
    refine ⟨right, rfl, hright, fun before found behind => ?_, fun hmem => h.filled (.tail _ hmem),
      (List.isChain_cons.1 h.apart).2⟩
    have hspans := h.spans (enclosed inner ++ before) found behind
    rw [List.nil_append, placed_span_append_iff] at hspans
    simpa [Occurs] using hspans
  · rintro ⟨pieces, rfl, h⟩
    refine ⟨by rw [List.flatMap_cons, h.whole]; rfl, fun before found behind => ?_, by simp [h.filled],
      List.isChain_cons.2 ⟨fun _ _ => .inl rfl, h.apart⟩⟩
    rw [occurs_enclosed_iff hinner, placed_span_iff, h.whole]
    simp only [h.spans]

/-- Pieces that begin with a character of text are those behind it with the character in front. -/
theorem exists_putChar {chars : List Char} (hfilled : .text [] ∉ Piece.text (c :: chars) :: pieces)
    (hapart : (Piece.text (c :: chars) :: pieces).IsChain fun piece next => piece.isSpan ∨ next.isSpan) :
    ∃ pieces', .text (c :: chars) :: pieces = putChar c pieces' ∧ .text [] ∉ pieces' ∧
      pieces'.IsChain fun piece next => piece.isSpan ∨ next.isSpan := by
  obtain ⟨hnext, htail⟩ := List.isChain_cons.1 hapart
  cases chars with
  | nil =>
    refine ⟨pieces, ?_, fun hmem => hfilled (.tail _ hmem), htail⟩
    rcases pieces with _ | ⟨chars' | inner, pieces⟩
    · rfl
    · exact absurd (hnext _ rfl) (by simp [Piece.isSpan, Piece.inner?])
    · rfl
  | cons d chars =>
    refine ⟨.text (d :: chars) :: pieces, rfl, ?_, List.isChain_cons.2 ⟨hnext, htail⟩⟩
    simpa using hfilled

/-- Where no span begins, a division has a character of text and a division of the rest. -/
theorem divides_cons_iff (hplain : ¬ Begins (c :: rest)) :
    Divides pieces (c :: rest) ↔ ∃ pieces', pieces = putChar c pieces' ∧ Divides pieces' rest := by
  constructor
  · intro h
    obtain ⟨pieces', rfl, hfilled, hapart⟩ : ∃ pieces', pieces = putChar c pieces' ∧ .text [] ∉ pieces' ∧
        pieces'.IsChain fun piece next => piece.isSpan ∨ next.isSpan := by
      rcases pieces with _ | ⟨⟨_ | ⟨d, chars⟩⟩ | inner, pieces⟩
      · cases h.whole
      · exact absurd List.mem_cons_self h.filled
      · obtain ⟨rfl, -⟩ := List.cons.inj h.whole
        exact exists_putChar h.filled h.apart
      · exact absurd ⟨inner, _, (h.spans _ _ _).2 ⟨[], pieces, rfl, rfl, rfl⟩⟩ hplain
    refine ⟨pieces', rfl, ?_, fun before found behind => ?_, hfilled, hapart⟩
    · exact (List.cons.inj ((source_putChar c pieces').symm.trans h.whole)).2
    · have hspans := h.spans (c :: before) found behind
      simpa [Occurs, placed_putChar_iff] using hspans
  · rintro ⟨pieces, rfl, h⟩
    refine ⟨by rw [source_putChar, h.whole], fun before found behind => ?_, filled_putChar h.filled,
      apart_putChar h.apart⟩
    rw [occurs_cons_iff hplain, placed_putChar_iff]
    simp only [h.spans]

theorem begins_cons_iff : Begins (c :: rest) ↔ c = openBrace ∧ (splitPlaceholder rest).isSome := by
  simp only [Begins, Occurs, List.nil_append, enclosed_append, List.cons.injEq, Option.isSome_iff_exists,
    Prod.exists, splitPlaceholder_eq_some_iff]
  constructor
  · rintro ⟨inner, behind, hinner, rfl, hrest⟩
    exact ⟨rfl, inner, behind, hinner, hrest⟩
  · rintro ⟨rfl, inner, behind, hinner, hrest⟩
    exact ⟨inner, behind, hinner, rfl, hrest⟩

/-- A source has one division. -/
theorem divides_iff {source : List Char} : Divides pieces source ↔ pieces = divide source := by
  fun_induction divide source generalizing pieces with
  | case1 => exact divides_nil_iff
  | case2 c rest hopen inner behind hsplit ih =>
    obtain ⟨hinner, rfl⟩ := splitPlaceholder_eq_some_iff.1 hsplit
    rw [beq_iff_eq.1 hopen, ← enclosed_append, divides_enclosed_iff hinner]
    simp [ih]
  | case3 c rest hopen hsplit ih =>
    have hplain : ¬ Begins (c :: rest) := by simp [begins_cons_iff, hsplit]
    rw [divides_cons_iff hplain]
    simp [ih]
  | case4 c rest hopen ih =>
    have hplain : ¬ Begins (c :: rest) := by simp_all [begins_cons_iff]
    rw [divides_cons_iff hplain]
    simp [ih]

theorem divide_enclosed (hinner : IsInner inner) : divide (enclosed inner ++ rest) = .span inner :: divide rest :=
  (divides_iff.1 ((divides_enclosed_iff hinner).2 ⟨_, rfl, divides_iff.2 rfl⟩)).symm

theorem divide_cons (hplain : ¬ Begins (c :: rest)) : divide (c :: rest) = putChar c (divide rest) :=
  (divides_iff.1 ((divides_cons_iff hplain).2 ⟨_, rfl, divides_iff.2 rfl⟩)).symm

end Dividing

/-! ## Chunks -/

theorem foldl_putChar_text (gathered chars : List Char) (pieces : List Piece) :
    gathered.foldl (fun pieces c => putChar c pieces) (.text chars :: pieces) =
      .text (gathered.reverse ++ chars) :: pieces := by
  induction gathered generalizing chars with
  | nil => rfl
  | cons c gathered ih =>
    rw [List.foldl_cons, putChar, ih, List.reverse_cons, List.append_assoc, List.singleton_append]

/-- Characters gathered in front of a span, or of the end, are one literal chunk. -/
theorem chunks_foldl_putChar (gathered : List Char) {pieces : List Piece}
    (hspan : ∀ chars pieces', pieces ≠ .text chars :: pieces') :
    (gathered.foldl (fun pieces c => putChar c pieces) pieces).map Piece.chunk =
      literalChunk gathered ++ pieces.map Piece.chunk := by
  cases gathered with
  | nil => rfl
  | cons c gathered =>
    have hput : putChar c pieces = .text [c] :: pieces := by
      unfold putChar
      split
      · exact absurd rfl (hspan _ _)
      · rfl
    rw [List.foldl_cons, hput, foldl_putChar_text, List.map_cons]
    simp [literalChunk, Piece.chunk]

theorem chunksOf_eq (gathered text : List Char) : chunksOf gathered text =
    (gathered.foldl (fun pieces c => putChar c pieces) (divide text)).map Piece.chunk := by
  fun_induction chunksOf gathered text with
  | case1 gathered =>
    rw [divides_nil_iff.1 (divides_iff.2 rfl), chunks_foldl_putChar gathered (by simp)]
    simp
  | case2 gathered c rest hopen inner behind hsplit ih =>
    obtain ⟨hinner, rfl⟩ := splitPlaceholder_eq_some_iff.1 hsplit
    rw [beq_iff_eq.1 hopen, ← enclosed_append, divide_enclosed hinner, chunks_foldl_putChar gathered (by simp), ih]
    rfl
  | case3 gathered c rest hopen hsplit ih =>
    rw [divide_cons (by simp [begins_cons_iff, hsplit]), ih]
    rfl
  | case4 gathered c rest hopen ih =>
    rw [divide_cons (by simp_all [begins_cons_iff]), ih]
    rfl

/-- Only the inner pair of braces is a placeholder; the others are text. -/
example : (compile "/a\x7bb/\x7bc\x7d/d\x7d/\x7b\x7d").chunks =
    [.literal "/a\x7bb/", .placeholder "c", .literal "/d\x7d/\x7b\x7d"] := by decide +kernel

end ResilientClient.Template
