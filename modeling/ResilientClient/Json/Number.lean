/-
Numbers in JSON text: an integer of 64 bits is read exactly, and any other number as a 64-bit
significand scaled by a power of ten, in which every step is rounded.
-/
import ResilientClient.Error
import ResilientClient.Json.Value

namespace ResilientClient.Json

/-- The result of reading a part of a text: what was read and what is left. -/
abbrev Reading (α : Type) := Except JsonFault (α × Bytes)

/-- The value of a decimal digit. -/
def digit? (b : UInt8) : Option Nat :=
  if 0x30 ≤ b && b ≤ 0x39 then some (b.toNat - 0x30) else none

def isDigit (b : UInt8) : Bool := (digit? b).isSome

def startsWithDigit : Bytes → Bool
  | b :: _ => isDigit b
  | [] => false

/-- The largest significand. -/
def maxSignificand : Nat := twoTo 64 - 1

/-- The power of ten as a binary number. -/
def powerOfTen (n : Nat) : Binary64 := Binary64.ofRatio false (tenTo n) 1

/-- Divides by `10 ^ 308` until the exponent fits, then by the power of ten that is left. -/
def scaleDown (x : Binary64) (exponent : Nat) : Binary64 :=
  if exponent ≤ 308 then x / powerOfTen exponent
  else if x.isZero then x
  else scaleDown (x / powerOfTen 308) (exponent - 308)
termination_by exponent

/-- The number `± significand · 10 ^ exponent`; one beyond the range of the format is refused. -/
def ofParts (positive : Bool) (significand : Nat) (exponent : Int) : Except JsonFault Binary64 :=
  let x := Binary64.ofNat significand
  let signed (y : Binary64) := if positive then y else y.neg
  if exponent < 0 then .ok (signed (scaleDown x (-exponent).toNat))
  else if 308 < exponent then
    if x.isZero then .ok (signed x) else .error .malformed
  else
    let y := x * powerOfTen exponent.toNat
    if y.isInfinite then .error .malformed else .ok (signed y)

/-- Reads the digits of an exponent into `value` as long as it stays below `2 ^ 31`; the flag says
that it did not. -/
def exponentDigits (value : Nat) : Bytes → Nat × Bool × Bytes
  | [] => (value, false, [])
  | b :: rest =>
    match digit? b with
    | none => (value, false, b :: rest)
    | some d =>
      if twoTo 31 - 1 < 10 * value + d then (value, true, rest)
      else exponentDigits (10 * value + d) rest

/-- Reads an exponent after its letter and completes the number. -/
def readExponent (positive : Bool) (significand : Nat) (start : Int) (text : Bytes) :
    Reading Binary64 :=
  let (up, text) := match text with
    | 0x2B :: rest => (true, rest)
    | 0x2D :: rest => (false, rest)
    | _ => (true, text)
  match text with
  | [] => .error .truncated
  | b :: rest =>
    match digit? b with
    | none => .error .malformed
    | some d =>
      let (value, overflow, rest) := exponentDigits d rest
      if overflow then
        if significand ≠ 0 && up then .error .malformed
        else
          let zero := Binary64.ofNat 0
          .ok (if positive then zero else zero.neg, rest.dropWhile isDigit)
      else
        match ofParts positive significand (if up then start + value else start - value) with
        | .ok x => .ok (x, rest)
        | .error fault => .error fault

/-- Completes a number whose digits are all read: an exponent may follow. -/
def readScale (positive : Bool) (significand : Nat) (exponent : Int) (text : Bytes) :
    Reading Binary64 :=
  match text with
  | 0x65 :: rest => readExponent positive significand exponent rest
  | 0x45 :: rest => readExponent positive significand exponent rest
  | _ =>
    match ofParts positive significand exponent with
    | .ok x => .ok (x, text)
    | .error fault => .error fault

/-- Reads fraction digits into the significand as long as it fits; yields the significand, the
number of digits read, whether one did not fit, and what is left. -/
def fractionDigits (significand count : Nat) : Bytes → Nat × Nat × Bool × Bytes
  | [] => (significand, count, false, [])
  | b :: rest =>
    match digit? b with
    | none => (significand, count, false, b :: rest)
    | some d =>
      if maxSignificand < 10 * significand + d then (significand, count, true, b :: rest)
      else fractionDigits (10 * significand + d) (count + 1) rest

/-- Reads a fraction after its point and completes the number; digits that do not fit are
dropped. -/
def readFraction (positive : Bool) (significand : Nat) (exponent : Int) (text : Bytes) :
    Reading Binary64 :=
  let (significand, count, overflow, rest) := fractionDigits significand 0 text
  if overflow then readScale positive significand (exponent - count) (rest.dropWhile isDigit)
  else if count = 0 then .error (if rest.isEmpty then .truncated else .malformed)
  else readScale positive significand (exponent - count) rest

/-- Reads integer digits into the significand as long as it fits; the flag says that one did
not. -/
def integerDigits (significand : Nat) : Bytes → Nat × Bool × Bytes
  | [] => (significand, false, [])
  | b :: rest =>
    match digit? b with
    | none => (significand, false, b :: rest)
    | some d =>
      if maxSignificand < 10 * significand + d then (significand, true, b :: rest)
      else integerDigits (10 * significand + d) rest

/-- Wraps a number that is not an integer of 64 bits. -/
def asFloat : Reading Binary64 → Reading Json
  | .ok (x, rest) => .ok (.float x, rest)
  | .error fault => .error fault

/-- Completes a number whose integer digits fit. -/
def readAfterInteger (positive : Bool) (significand : Nat) (text : Bytes) : Reading Json :=
  match text with
  | 0x2E :: rest => asFloat (readFraction positive significand 0 rest)
  | 0x65 :: rest => asFloat (readExponent positive significand 0 rest)
  | 0x45 :: rest => asFloat (readExponent positive significand 0 rest)
  | _ =>
    if positive then .ok (.integer significand, text)
    else if significand = 0 || twoTo 63 < significand then
      .ok (.float (Binary64.ofNat significand).neg, text)
    else .ok (.integer (-(significand : Int)), text)

/-- Completes a number with more integer digits than fit; those only count into the exponent. -/
def readLongInteger (positive : Bool) (significand : Nat) (text : Bytes) : Reading Json :=
  let exponent : Int := (text.takeWhile isDigit).length
  match text.dropWhile isDigit with
  | 0x2E :: rest => asFloat (readFraction positive significand exponent rest)
  | rest => asFloat (readScale positive significand exponent rest)

/-- Reads a number after its sign. -/
def readNumber (positive : Bool) (text : Bytes) : Reading Json :=
  match text with
  | [] => .error .truncated
  | 0x30 :: rest =>
    if startsWithDigit rest then .error .malformed else readAfterInteger positive 0 rest
  | b :: rest =>
    match digit? b with
    | none => .error .malformed
    | some d =>
      let (significand, overflow, rest) := integerDigits d rest
      if overflow then readLongInteger positive significand rest
      else readAfterInteger positive significand rest

end ResilientClient.Json
