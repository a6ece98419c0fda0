/-
Typed reading of JSON text: readers for integers, optional values, lists and records that fail as
soon as what they meet has the wrong shape, and that pass over what they do not need.
-/
import ResilientClient.Json.Parser

namespace ResilientClient.Json

/-- A reader for values of one type, in which lists and objects nest less than `depth` deep. -/
abbrev Decoder (α : Type) := (depth : Nat) → Bytes → Except JsonFault (α × Bytes)

namespace Decoder

/-! ## Mismatches -/

/-- The fault of meeting a value of the wrong kind: a mismatch if the value itself is well formed
as far as it has to be read to be recognized. -/
def mismatch (text : Bytes) : JsonFault :=
  match text with
  | [] => .truncated
  | b :: rest =>
    let settle {α : Type} : Except JsonFault α → JsonFault
      | .ok _ => .mismatched
      | .error fault => fault
    if b == 0x6E then settle (readWord nullRest rest)
    else if b == 0x74 then settle (readWord trueRest rest)
    else if b == 0x66 then settle (readWord falseRest rest)
    else if b == 0x2D then settle (readNumber false rest)
    else if isDigit b then settle (readNumber true text)
    else if b == 0x22 then settle (readString rest)
    else if b == 0x5B || b == 0x7B then .mismatched
    else .malformed

/-! ## Passing over values -/

/-- An open list or object. -/
inductive Frame where
  | list
  | object
deriving DecidableEq, Repr

/-- The byte that closes a frame. -/
def Frame.close : Frame → UInt8
  | .list => 0x5D
  | .object => 0x7D

/-- Passes over a number after its sign: its form is checked and not its size. -/
def skipNumber (text : Bytes) : Except JsonFault Bytes :=
  let afterDigits (text : Bytes) : Except JsonFault Bytes :=
    if startsWithDigit text then .ok (text.dropWhile isDigit) else .error .malformed
  let skipExponent (text : Bytes) : Except JsonFault Bytes :=
    match text with
    | 0x2B :: rest => afterDigits rest
    | 0x2D :: rest => afterDigits rest
    | _ => afterDigits text
  let skipScale (text : Bytes) : Except JsonFault Bytes :=
    match text with
    | 0x65 :: rest => skipExponent rest
    | 0x45 :: rest => skipExponent rest
    | _ => .ok text
  let skipFraction (text : Bytes) : Except JsonFault Bytes :=
    match text with
    | 0x2E :: rest => (afterDigits rest).bind skipScale
    | _ => skipScale text
  match text with
  | 0x30 :: rest => if startsWithDigit rest then .error .malformed else skipFraction rest
  | _ => (afterDigits text).bind skipFraction

/-- What comes after a value has been passed over: the end, or another value. -/
inductive Next where
  | finished (rest : Bytes)
  | value (frames : List Frame) (rest : Bytes)

/-- Passes over the name of a member and its colon. -/
def skipName (text : Bytes) : Except JsonFault Bytes :=
  match skipBlanks text with
  | [] => .error .truncated
  | b :: rest => if b == 0x22 then (skipString rest).bind readColon else .error .malformed

/-- The next value in the innermost frame, after the name of its member in an object. -/
def nextValue (frame : Frame) (frames : List Frame) (text : Bytes) : Except JsonFault Next :=
  match frame with
  | .list => .ok (.value (frame :: frames) text)
  | .object => (skipName text).map (.value (frame :: frames) ·)

/-- Closes the frames that end here; `comma` says that a value came before. -/
def closeFrames (comma : Bool) : List Frame → Bytes → Except JsonFault Next
  | [], text => .ok (.finished text)
  | frame :: frames, text =>
    match skipBlanks text with
    | [] => .error .truncated
    | b :: rest =>
      if comma && b == 0x2C then nextValue frame frames rest
      else if b == frame.close then closeFrames true frames rest
      else if comma then .error .malformed
      else nextValue frame frames (b :: rest)

/-- Passes over one value inside the given frames, and over the rest of the frames; nesting is not
limited. -/
def skipFrom : Nat → List Frame → Bytes → Except JsonFault Bytes
  | 0, _, _ => .error .truncated
  | fuel + 1, frames, text =>
    let continueWith (next : Except JsonFault Next) : Except JsonFault Bytes :=
      match next with
      | .error fault => .error fault
      | .ok (.finished rest) => .ok rest
      | .ok (.value frames rest) => skipFrom fuel frames rest
    match skipBlanks text with
    | [] => .error .truncated
    | b :: rest =>
      if b == 0x5B then continueWith (closeFrames false (.list :: frames) rest)
      else if b == 0x7B then continueWith (closeFrames false (.object :: frames) rest)
      else
        let scalar :=
          if b == 0x6E then readWord nullRest rest
          else if b == 0x74 then readWord trueRest rest
          else if b == 0x66 then readWord falseRest rest
          else if b == 0x2D then skipNumber rest
          else if isDigit b then skipNumber (b :: rest)
          else if b == 0x22 then skipString rest
          else .error .malformed
        continueWith (scalar.bind (closeFrames true frames))

/-- Passes over one value with less than `room` parts. -/
def skipValue (room : Nat) (text : Bytes) : Except JsonFault Bytes := skipFrom room [] text

/-! ## Readers -/

/-- Any value, objects normalized. -/
def any : Decoder Json := fun depth text =>
  (readValue (roomFor text) depth text).map fun (v, rest) => (v.normalize, rest)

/-- An integer of 64 bits with a sign. -/
def int64 : Decoder Json := fun _ text =>
  let check : Reading Json → Reading Json
    | .ok (.integer n, rest) => if n < twoTo 63 then .ok (.integer n, rest) else .error .mismatched
    | .ok _ => .error .mismatched
    | .error fault => .error fault
  match skipBlanks text with
  | [] => .error .truncated
  | b :: rest =>
    if b == 0x2D then check (readNumber false rest)
    else if isDigit b then check (readNumber true (b :: rest))
    else .error (mismatch (b :: rest))

/-- A string. -/
def string : Decoder Json := fun _ text =>
  match skipBlanks text with
  | [] => .error .truncated
  | b :: rest =>
    if b == 0x22 then (readString rest).map fun (s, rest) => (.string s, rest)
    else .error (mismatch (b :: rest))

/-- A value or `null`. -/
def optional (inner : Decoder Json) : Decoder Json := fun depth text =>
  match skipBlanks text with
  | 0x6E :: rest => (readWord nullRest rest).map fun rest => (.null, rest)
  | _ => inner depth text

/-- A list of values of one type. -/
def list (inner : Decoder Json) : Decoder Json := fun depth text =>
  match skipBlanks text with
  | [] => .error .truncated
  | b :: rest =>
    if b == 0x5B then
      if depth ≤ 1 then .error .malformed
      else do
        let (items, rest) ← readElements (inner (depth - 1)) (roomFor rest) true [] rest
        let rest ← readClose 0x5D rest
        return (.array items, rest)
    else .error (mismatch (b :: rest))

/-- A field of a record; one with a default may be missing from an object. -/
structure Field where
  name : String
  decoder : Decoder Json
  default? : Option Json

/-- Reads the fields of a record in their order from a list, one element each. -/
def fieldsOfList (depth : Nat) : List Field → Bool → List (String × Json) → Bytes →
    Reading (List (String × Json))
  | [], _, acc, text => .ok (acc.reverse, text)
  | field :: fields, first, acc, text =>
    match atElement first text with
    | .error fault => .error fault
    | .ok (false, _) => .error .mismatched
    | .ok (true, rest) =>
      match field.decoder depth rest with
      | .error fault => .error fault
      | .ok (v, rest) => fieldsOfList depth fields false ((field.name, v) :: acc) rest

/-- Reads at most `fuel` members into the fields of their names and passes over the others; a field
that comes twice is a mismatch. -/
def fieldsOfObject (depth : Nat) (fields : List Field) : Nat → Bool → List (String × Json) →
    Bytes → Except JsonFault (List (String × Json) × Bytes)
  | 0, _, _, _ => .error .truncated
  | fuel + 1, first, acc, text =>
    match atMember first text with
    | .error fault => .error fault
    | .ok (false, rest) => .ok (acc, rest)
    | .ok (true, rest) => do
      let (name, rest) ← readString rest
      match fields.find? fun field => field.name == name with
      | some field =>
        if acc.any fun entry => entry.1 == name then .error .mismatched
        else
          let rest ← readColon rest
          let (v, rest) ← field.decoder depth rest
          fieldsOfObject depth fields fuel false ((name, v) :: acc) rest
      | none =>
        let rest ← readColon rest
        let rest ← skipValue (fuel + 1) rest
        fieldsOfObject depth fields fuel false acc rest

/-- The fields in their order, the missing ones with their defaults. -/
def complete (found : List (String × Json)) :
    List Field → Except JsonFault (List (String × Json))
  | [] => .ok []
  | field :: fields =>
    match ((found.find? fun entry => entry.1 == field.name).map Prod.snd).orElse
        fun _ => field.default? with
    | none => .error .mismatched
    | some v => (complete found fields).map ((field.name, v) :: ·)

/-- A record, written as an object or as the list of its fields. -/
def record (fields : List Field) : Decoder Json := fun depth text =>
  match skipBlanks text with
  | [] => .error .truncated
  | b :: rest =>
    if b == 0x5B then
      if depth ≤ 1 then .error .malformed
      else do
        let (found, rest) ← fieldsOfList (depth - 1) fields true [] rest
        let rest ← readClose 0x5D rest
        return (.object found, rest)
    else if b == 0x7B then
      if depth ≤ 1 then .error .malformed
      else do
        let (found, rest) ← fieldsOfObject (depth - 1) fields (roomFor rest) true [] rest
        let found ← complete found fields
        let rest ← readClose 0x7D rest
        return (.object found, rest)
    else .error (mismatch (b :: rest))

/-- Decodes a whole text. -/
def run {α : Type} (decoder : Decoder α) (text : Bytes) : Except JsonFault α :=
  readWhole (decoder depthLimit) text

end Decoder

end ResilientClient.Json
