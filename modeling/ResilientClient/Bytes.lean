/-
Byte strings: the UTF-8 form of a text, the text a byte string may hold, hexadecimal digits and
the trimming of ASCII blanks.
-/
import ResilientClient.Text.Blank

namespace ResilientClient

/-- A string of bytes: a body chunk, a header value, the UTF-8 form of a text. -/
abbrev Bytes := List UInt8

namespace Bytes

/-- The UTF-8 form of a text. -/
def ofText (text : String) : Bytes := text.toList.flatMap String.utf8EncodeChar

/-- The text of which these bytes are the UTF-8 form, if there is one. -/
def toText? (bytes : Bytes) : Option String := String.fromUTF8? ⟨bytes.toArray⟩

/-! ## Blanks -/

/-- Space, tab, line feed, form feed and carriage return. -/
def isBlank (b : UInt8) : Bool :=
  b == 0x20 || b == 0x09 || b == 0x0A || b == 0x0C || b == 0x0D

/-- The bytes without the blanks at either end. -/
def trim (bytes : Bytes) : Bytes := trimmed isBlank bytes

/-! ## Hexadecimal digits -/

/-- The upper-case digit of a number below sixteen. -/
def upperHexDigit (n : Nat) : Char := if n < 10 then Char.ofNat (48 + n) else Char.ofNat (55 + n)

/-- The lower-case digit of a number below sixteen. -/
def lowerHexDigit (n : Nat) : Char := if n < 10 then Char.ofNat (48 + n) else Char.ofNat (87 + n)

/-- The two upper-case hexadecimal digits of a byte. -/
def upperHex (b : UInt8) : List Char :=
  [upperHexDigit (b.toNat / 16), upperHexDigit (b.toNat % 16)]

/-- The two lower-case hexadecimal digits of a byte. -/
def lowerHex (b : UInt8) : List Char :=
  [lowerHexDigit (b.toNat / 16), lowerHexDigit (b.toNat % 16)]

end Bytes

end ResilientClient
