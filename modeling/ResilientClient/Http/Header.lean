/-
Header fields: names compared without regard to case, values as bytes, and lists of fields that
keep the names in the order of their first appearance with the values of one name together.
-/
import ResilientClient.Bytes
import ResilientClient.Grouping

namespace ResilientClient.Http

/-! ## Names -/

/-- The characters of a header name. -/
def isTokenChar (c : Char) : Bool :=
  c.isAlphanum || c == '!' || c == '#' || c == '$' || c == '%' || c == '&' || c == '\'' ||
    c == '*' || c == '+' || c == '-' || c == '.' || c == '^' || c == '_' || c == Char.ofNat 0x60 ||
    c == '|' || c == '~'

/-- A header name, in lower case. -/
structure HeaderName where
  text : String
deriving DecidableEq, Repr

namespace HeaderName

/-- The lower-case form by which names are compared. -/
def fold (text : String) : String := String.ofList (text.toList.map Char.toLower)

/-- The name that a text spells: between 1 and 65535 token characters. -/
def parse? (text : String) : Option HeaderName :=
  let chars := text.toList
  if chars.isEmpty || !chars.all isTokenChar || 65535 < chars.length then none
  else some ⟨fold text⟩

def contentType : HeaderName := ⟨"content-type"⟩
def contentLength : HeaderName := ⟨"content-length"⟩
def userAgent : HeaderName := ⟨"user-agent"⟩
def retryAfter : HeaderName := ⟨"retry-after"⟩

end HeaderName

/-! ## Values -/

/-- The bytes of a header value: the tab and everything from the space on except delete. -/
def isValueByte (b : UInt8) : Bool := (0x20 ≤ b && b != 0x7F) || b == 0x09

/-- The bytes of a header value that may be read as text: the tab and visible ASCII. -/
def isVisibleByte (b : UInt8) : Bool := (0x20 ≤ b && b < 0x7F) || b == 0x09

/-- A header value. -/
structure HeaderValue where
  bytes : Bytes
deriving DecidableEq, Repr

namespace HeaderValue

/-- The value made of these bytes, if all may stand in one. -/
def ofBytes? (bytes : Bytes) : Option HeaderValue :=
  if bytes.all isValueByte then some ⟨bytes⟩ else none

/-- The value whose bytes are the UTF-8 form of a text. -/
def ofText? (text : String) : Option HeaderValue := ofBytes? (Bytes.ofText text)

/-- The value read as text, if all its bytes are visible. -/
def toText? (value : HeaderValue) : Option String :=
  if value.bytes.all isVisibleByte then
    some (String.ofList (value.bytes.map fun b => Char.ofNat b.toNat))
  else none

end HeaderValue

/-! ## Lists -/

/-- A list of header fields, each name with its values. -/
structure Headers where
  fields : List (HeaderName × List HeaderValue)
deriving DecidableEq, Repr

namespace Headers

/-- The list without fields. -/
def empty : Headers := ⟨[]⟩

/-- The values of a name; no values when it is absent. -/
def valuesOf (headers : Headers) (name : HeaderName) : List HeaderValue :=
  ((headers.fields.find? fun field => field.1 == name).map Prod.snd).getD []

/-- The first value of a name. -/
def first? (headers : Headers) (name : HeaderName) : Option HeaderValue :=
  (headers.valuesOf name).head?

/-- Whether a name is present. -/
def contains (headers : Headers) (name : HeaderName) : Bool :=
  headers.fields.any fun field => field.1 == name

/-- Adds a value after those that the name already has. -/
def append (headers : Headers) (name : HeaderName) (value : HeaderValue) : Headers :=
  ⟨Grouping.add (· == ·) name value headers.fields⟩

/-- Makes a value the only one of its name. -/
def set (headers : Headers) (name : HeaderName) (value : HeaderValue) : Headers :=
  ⟨Grouping.update (· == ·) (fun _ => [value]) name headers.fields⟩

/-- The fields one value at a time. -/
def pairs (headers : Headers) : List (HeaderName × HeaderValue) :=
  headers.fields.flatMap fun field => field.2.map fun value => (field.1, value)

/-- The list that holds the given values, added in order. -/
def ofPairs (pairs : List (HeaderName × HeaderValue)) : Headers :=
  pairs.foldl (fun headers pair => headers.append pair.1 pair.2) empty

/-- The number of distinct names. -/
def size (headers : Headers) : Nat := headers.fields.length

end Headers

end ResilientClient.Http
