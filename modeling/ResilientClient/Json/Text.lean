/-
Strings in JSON text: escapes are resolved, surrogates have to be paired, controls have to be
escaped, and what results has to be UTF-8.
-/
import ResilientClient.Json.Number

namespace ResilientClient.Json

/-- The value of a hexadecimal digit. -/
def hexDigit? (b : UInt8) : Option Nat :=
  if 0x30 ≤ b && b ≤ 0x39 then some (b.toNat - 0x30)
  else if 0x41 ≤ b && b ≤ 0x46 then some (b.toNat - 55)
  else if 0x61 ≤ b && b ≤ 0x66 then some (b.toNat - 87)
  else none

/-- The byte that a one-letter escape stands for. -/
def escaped? (b : UInt8) : Option UInt8 :=
  if b == 0x22 || b == 0x5C || b == 0x2F then some b
  else if b == 0x62 then some 0x08
  else if b == 0x66 then some 0x0C
  else if b == 0x6E then some 0x0A
  else if b == 0x72 then some 0x0D
  else if b == 0x74 then some 0x09
  else none

/-- Where a reading inside a string stands. -/
inductive StringState where
  | plain
  /-- After a backslash. -/
  | escape
  /-- Inside a numeric escape with `count` digits to come, after the high surrogate `high` if
  there is one. -/
  | hex (high : Option Nat) (count : Nat) (value : Nat)
  /-- After a high surrogate, before the backslash of the low one. -/
  | beforeLow (high : Nat)
  /-- After a high surrogate and a backslash. -/
  | escapeLow (high : Nat)

/-- At least four bytes follow. -/
def hasFour : Bytes → Bool
  | _ :: _ :: _ :: _ :: _ => true
  | _ => false

def isHighSurrogate (n : Nat) : Bool := 0xD800 ≤ n && n ≤ 0xDBFF
def isLowSurrogate (n : Nat) : Bool := 0xDC00 ≤ n && n ≤ 0xDFFF

/-- The UTF-8 form of a code point that is no surrogate. -/
def codePoint (n : Nat) : Bytes := String.utf8EncodeChar (Char.ofNat n)

/-- What a complete numeric escape leads to: the bytes it adds and the state after it. -/
def endHex (high : Option Nat) (n : Nat) : Option (Bytes × StringState) :=
  match high with
  | none =>
    if isLowSurrogate n then none
    else if isHighSurrogate n then some ([], .beforeLow n)
    else some (codePoint n, .plain)
  | some h =>
    if isLowSurrogate n then
      some (codePoint (0x10000 + (h - 0xD800) * 1024 + (n - 0xDC00)), .plain)
    else none

/-- Reads a string up to its closing quote; `acc` holds the bytes read so far in reverse. -/
def readStringBytes (state : StringState) (acc : Bytes) : Bytes → Reading Bytes
  | [] => .error .truncated
  | b :: rest =>
    match state with
    | .plain =>
      if b == 0x22 then .ok (acc.reverse, rest)
      else if b == 0x5C then readStringBytes .escape acc rest
      else if b < 0x20 then .error .malformed
      else readStringBytes .plain (b :: acc) rest
    | .escape =>
      if b == 0x75 then
        if hasFour rest then readStringBytes (.hex none 4 0) acc rest else .error .truncated
      else
        match escaped? b with
        | some byte => readStringBytes .plain (byte :: acc) rest
        | none => .error .malformed
    | .hex high count value =>
      match hexDigit? b with
      | none => .error .malformed
      | some d =>
        let value := 16 * value + d
        if 1 < count then readStringBytes (.hex high (count - 1) value) acc rest
        else
          match endHex high value with
          | some (bytes, next) => readStringBytes next (bytes.reverse ++ acc) rest
          | none => .error .malformed
    | .beforeLow high =>
      if b == 0x5C then readStringBytes (.escapeLow high) acc rest else .error .malformed
    | .escapeLow high =>
      if b == 0x75 then
        if hasFour rest then readStringBytes (.hex (some high) 4 0) acc rest
        else .error .truncated
      else .error .malformed

/-- Reads a string after its opening quote. -/
def readString (text : Bytes) : Reading String :=
  match readStringBytes .plain [] text with
  | .error fault => .error fault
  | .ok (bytes, rest) =>
    match Bytes.toText? bytes with
    | some s => .ok (s, rest)
    | none => .error .malformed

/-- Passes over a string up to its closing quote; escapes have to be well formed, but neither
surrogates nor UTF-8 are checked. -/
def skipStringBytes (state : StringState) : Bytes → Except JsonFault Bytes
  | [] => .error .truncated
  | b :: rest =>
    match state with
    | .escape =>
      if b == 0x75 then
        if hasFour rest then skipStringBytes (.hex none 4 0) rest else .error .truncated
      else if (escaped? b).isSome then skipStringBytes .plain rest
      else .error .malformed
    | .hex high count value =>
      if (hexDigit? b).isNone then .error .malformed
      else if 1 < count then skipStringBytes (.hex high (count - 1) value) rest
      else skipStringBytes .plain rest
    | _ =>
      if b == 0x22 then .ok rest
      else if b == 0x5C then skipStringBytes .escape rest
      else if b < 0x20 then .error .malformed
      else skipStringBytes .plain rest

/-- Passes over a string after its opening quote. -/
def skipString (text : Bytes) : Except JsonFault Bytes := skipStringBytes .plain text

end ResilientClient.Json
