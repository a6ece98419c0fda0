/-
Quoted text for diagnostics: a text, a byte string or a header value between double quotes, with
the characters that would not show written as escapes.
-/
import ResilientClient.Bytes
import ResilientClient.Text.Hidden

namespace ResilientClient.Text.Quoted

/-- The digits of a number in base sixteen, lower case, without leading zeros. -/
def hexDigits (n : Nat) : List Char := Nat.toDigits 16 n

/-- The written form of one character of a text; one without a form of its own is shown by its
number. -/
def char (c : Char) : List Char :=
  if c = '"' then ['\\', '"']
  else if c = '\\' then ['\\', '\\']
  else if c = '\n' then ['\\', 'n']
  else if c = '\r' then ['\\', 'r']
  else if c = '\t' then ['\\', 't']
  else if c.toNat = 0 then ['\\', '0']
  else if isHidden c then ['\\', 'u', Char.ofNat 0x7B] ++ hexDigits c.toNat ++ [Char.ofNat 0x7D]
  else [c]

/-- A text between quotes. -/
def text (s : String) : String :=
  String.ofList (['"'] ++ s.toList.flatMap char ++ ['"'])

/-- The written form of one byte of a byte string. -/
def byte (b : UInt8) : List Char :=
  if b == 0x22 then ['\\', '"']
  else if b == 0x5C then ['\\', '\\']
  else if b == 0x0A then ['\\', 'n']
  else if b == 0x0D then ['\\', 'r']
  else if b == 0x09 then ['\\', 't']
  else if b == 0x00 then ['\\', '0']
  else if 0x20 ≤ b && b < 0x7F then [Char.ofNat b.toNat]
  else ['\\', 'x'] ++ Bytes.lowerHex b

/-- A byte string between quotes, marked by a leading `b`. -/
def bytes (bs : Bytes) : String :=
  String.ofList (['b', '"'] ++ bs.flatMap byte ++ ['"'])

/-- The written form of one byte of a header value. -/
def headerByte (b : UInt8) : List Char :=
  if b == 0x22 then ['\\', '"']
  else if b == 0x09 || (0x20 ≤ b && b < 0x7F) then [Char.ofNat b.toNat]
  else ['\\', 'x'] ++ hexDigits b.toNat

/-- A header value between quotes. -/
def headerValue (bs : Bytes) : String :=
  String.ofList (['"'] ++ bs.flatMap headerByte ++ ['"'])

end ResilientClient.Text.Quoted
