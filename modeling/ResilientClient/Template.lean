/-
Templates: texts with placeholders in braces, split once into chunks and expanded with the values
bound to the placeholders. A brace that opens no placeholder is ordinary text, and a placeholder
without a binding is written back in its braces.
-/
import ResilientClient.Text.Blank
import ResilientClient.Text.Join
import ResilientClient.Text.Percent

namespace ResilientClient

/-- The values bound to placeholder names; the first binding of a name counts. -/
abbrev Bindings := List (String × List String)

/-- Binds a name, in place of what was bound to it. -/
def Bindings.bind (bindings : Bindings) (name : String) (values : List String) : Bindings :=
  (name, values) :: bindings

/-- The values bound to a name. -/
def Bindings.values? (bindings : Bindings) (name : String) : Option (List String) :=
  (bindings.find? fun binding => binding.1 == name).map Prod.snd

/-- How values are written: as they are, or percent-encoded. -/
inductive Encoding where
  | verbatim
  | percent
deriving DecidableEq, Repr

/-- The written form of a value. -/
def Encoding.apply : Encoding → String → String
  | .verbatim, value => value
  | .percent, value => Text.Percent.encode value

namespace Template

/-- A stretch of literal text, or a placeholder. -/
inductive Chunk where
  | literal (text : String)
  | placeholder (name : String)
deriving DecidableEq, Repr

def openBrace : Char := Char.ofNat 0x7B
def closeBrace : Char := Char.ofNat 0x7D

def isBrace (c : Char) : Bool := c == openBrace || c == closeBrace

/-- The name of the placeholder that begins after an opening brace, and the text behind its
closing brace: at least one character and no other brace in between. -/
def splitPlaceholder (text : List Char) : Option (List Char × List Char) :=
  let name := text.takeWhile (!isBrace ·)
  match text.dropWhile (!isBrace ·) with
  | [] => none
  | c :: rest => if c == closeBrace && !name.isEmpty then some (name, rest) else none

/-- What is left behind a placeholder is shorter than the text. -/
theorem splitPlaceholder_length {text name rest : List Char}
    (h : splitPlaceholder text = some (name, rest)) : rest.length < text.length := by
  have hle : (text.dropWhile (!isBrace ·)).length ≤ text.length :=
    (List.dropWhile_sublist _).length_le
  simp only [splitPlaceholder] at h
  split at h
  · cases h
  · rename_i c rest' hd
    rw [hd] at hle
    split at h
    · cases h
      simp at hle
      omega
    · cases h

/-- The literal chunk of the characters gathered in reverse, if there are any. -/
def literalChunk (gathered : List Char) : List Chunk :=
  if gathered.isEmpty then [] else [.literal (String.ofList gathered.reverse)]

/-- The chunks of a text; `gathered` holds the literal characters before it in reverse. -/
def chunksOf (gathered text : List Char) : List Chunk :=
  match text with
  | [] => literalChunk gathered
  | c :: rest =>
    if c == openBrace then
      match _h : splitPlaceholder rest with
      | some (name, after) =>
        literalChunk gathered ++ .placeholder (String.ofList (Text.trim name)) :: chunksOf [] after
      | none => chunksOf (c :: gathered) rest
    else chunksOf (c :: gathered) rest
termination_by text.length
decreasing_by
  · have := splitPlaceholder_length _h; simp; omega
  · simp
  · simp

end Template

/-- A text split into its chunks. -/
structure Template where
  source : String
  chunks : List Template.Chunk
deriving DecidableEq, Repr

namespace Template

/-- The template of a text. -/
def compile (source : String) : Template := ⟨source, chunksOf [] source.toList⟩

/-- The name of a placeholder chunk. -/
def Chunk.name? : Chunk → Option String
  | .literal _ => none
  | .placeholder name => some name

/-- The placeholder names in order. -/
def placeholders (t : Template) : List String := t.chunks.filterMap Chunk.name?

/-- There is no placeholder. -/
def isLiteral (t : Template) : Bool := t.placeholders.isEmpty

/-- A placeholder in its braces. -/
def braced (name : String) : String :=
  String.ofList [openBrace] ++ name ++ String.ofList [closeBrace]

/-- The expansion of one chunk; several values are joined by commas. -/
def Chunk.expand (bindings : Bindings) (encoding : Encoding) : Chunk → String
  | .literal text => text
  | .placeholder name =>
    match bindings.values? name with
    | some values => Text.join "," (values.map encoding.apply)
    | none => braced name

/-- The expansion of a template. -/
def expand (t : Template) (bindings : Bindings) (encoding : Encoding) : String :=
  Text.join "" (t.chunks.map (Chunk.expand bindings encoding))

/-- The expansions of a template for a field that may repeat: one for each value if the template
is a single bound placeholder, otherwise the one expansion. -/
def expandValues (t : Template) (bindings : Bindings) (encoding : Encoding) : List String :=
  match t.chunks with
  | [.placeholder name] =>
    match bindings.values? name with
    | some values => values.map encoding.apply
    | none => [t.expand bindings encoding]
  | _ => [t.expand bindings encoding]

end Template

end ResilientClient
