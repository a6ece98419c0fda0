/-
Percent-encoding: letters, digits and `-`, `.`, `_`, `~` stand for themselves, and every other
byte of the UTF-8 form is written as a percent sign and two upper-case hexadecimal digits.
-/
import ResilientClient.Bytes

namespace ResilientClient.Text.Percent

/-- The bytes that stand for themselves. -/
def isUnreserved (b : UInt8) : Bool :=
  (0x30 ≤ b && b ≤ 0x39) || (0x41 ≤ b && b ≤ 0x5A) || (0x61 ≤ b && b ≤ 0x7A) ||
    b == 0x2D || b == 0x2E || b == 0x5F || b == 0x7E

/-- The written form of one byte. -/
def encodeByte (b : UInt8) : List Char :=
  if isUnreserved b then [Char.ofNat b.toNat] else '%' :: Bytes.upperHex b

/-- The percent-encoded form of a text. -/
def encode (text : String) : String :=
  String.ofList ((Bytes.ofText text).flatMap encodeByte)

end ResilientClient.Text.Percent
