/-
Lenient reading of UTF-8: a byte string becomes text in which each maximal part that begins no
well-formed sequence is replaced by U+FFFD.
-/
import ResilientClient.Bytes

namespace ResilientClient.Text.Utf8

/-- The character that stands for ill-formed bytes. -/
def replacement : Char := '\uFFFD'

/-- A byte that continues a sequence. -/
def isTail (b : UInt8) : Bool := 0x80 ≤ b && b ≤ 0xBF

/-- The bytes allowed second after the first byte of a three-byte sequence. -/
def isSecondOfThree (first second : UInt8) : Bool :=
  if first == 0xE0 then 0xA0 ≤ second && second ≤ 0xBF
  else if first == 0xED then 0x80 ≤ second && second ≤ 0x9F
  else 0xE1 ≤ first && first ≤ 0xEF && isTail second

/-- The bytes allowed second after the first byte of a four-byte sequence. -/
def isSecondOfFour (first second : UInt8) : Bool :=
  if first == 0xF0 then 0x90 ≤ second && second ≤ 0xBF
  else if first == 0xF4 then 0x80 ≤ second && second ≤ 0x8F
  else 0xF1 ≤ first && first ≤ 0xF3 && isTail second

/-- The six low bits of a continuing byte. -/
def tailBits (b : UInt8) : Nat := b.toNat % 64

/-- The text of a byte string, with U+FFFD for each maximal ill-formed part. -/
def decodeLossy : Bytes → List Char
  | [] => []
  | a :: rest =>
    if a < 0x80 then Char.ofNat a.toNat :: decodeLossy rest
    else if 0xC2 ≤ a && a ≤ 0xDF then
      match rest with
      | b :: rest₁ =>
        if isTail b then Char.ofNat (a.toNat % 32 * 64 + tailBits b) :: decodeLossy rest₁
        else replacement :: decodeLossy (b :: rest₁)
      | [] => [replacement]
    else if 0xE0 ≤ a && a ≤ 0xEF then
      match rest with
      | b :: rest₁ =>
        if isSecondOfThree a b then
          match rest₁ with
          | c :: rest₂ =>
            if isTail c then
              Char.ofNat (a.toNat % 16 * 4096 + tailBits b * 64 + tailBits c) :: decodeLossy rest₂
            else replacement :: decodeLossy (c :: rest₂)
          | [] => [replacement]
        else replacement :: decodeLossy (b :: rest₁)
      | [] => [replacement]
    else if 0xF0 ≤ a && a ≤ 0xF4 then
      match rest with
      | b :: rest₁ =>
        if isSecondOfFour a b then
          match rest₁ with
          | c :: rest₂ =>
            if isTail c then
              match rest₂ with
              | d :: rest₃ =>
                if isTail d then
                  Char.ofNat (a.toNat % 8 * 262144 + tailBits b * 4096 + tailBits c * 64 + tailBits d)
                    :: decodeLossy rest₃
                else replacement :: decodeLossy (d :: rest₃)
              | [] => [replacement]
            else replacement :: decodeLossy (c :: rest₂)
          | [] => [replacement]
        else replacement :: decodeLossy (b :: rest₁)
      | [] => [replacement]
    else replacement :: decodeLossy rest

end ResilientClient.Text.Utf8
