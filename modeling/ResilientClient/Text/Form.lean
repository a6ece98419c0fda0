/-
Form encoding (`application/x-www-form-urlencoded`): pairs `name=value` joined by `&`, in which
letters, digits and `*`, `-`, `.`, `_` stand for themselves, a space is written `+`, and every
other byte is percent-encoded.
-/
import ResilientClient.Bytes
import ResilientClient.Text.Join

namespace ResilientClient.Text.Form

/-- The bytes that stand for themselves. -/
def isPlain (b : UInt8) : Bool :=
  (0x30 ≤ b && b ≤ 0x39) || (0x41 ≤ b && b ≤ 0x5A) || (0x61 ≤ b && b ≤ 0x7A) ||
    b == 0x2A || b == 0x2D || b == 0x2E || b == 0x5F

/-- The written form of one byte. -/
def encodeByte (b : UInt8) : List Char :=
  if isPlain b then [Char.ofNat b.toNat]
  else if b == 0x20 then ['+']
  else '%' :: Bytes.upperHex b

/-- The written form of a name or of a value. -/
def encode (text : String) : String :=
  String.ofList ((Bytes.ofText text).flatMap encodeByte)

/-- The written form of one pair. -/
def encodePair (pair : String × String) : String := encode pair.1 ++ "=" ++ encode pair.2

/-- The written form of a list of pairs. -/
def encodePairs (pairs : List (String × String)) : String :=
  Text.join "&" (pairs.map encodePair)

end ResilientClient.Text.Form
