/-
Reading JSON text: any value, nested at most 127 deep, with nothing but blanks after it.
-/
import ResilientClient.Json.Text

namespace ResilientClient.Json

/-- The blanks of JSON text: space, tab, line feed, carriage return. -/
def isBlank (b : UInt8) : Bool := b == 0x20 || b == 0x0A || b == 0x09 || b == 0x0D

/-- The text from its first byte that is no blank. -/
def skipBlanks (text : Bytes) : Bytes := text.dropWhile isBlank

/-- Reads the rest of a fixed word. -/
def readWord : List UInt8 → Bytes → Except JsonFault Bytes
  | [], text => .ok text
  | _ :: _, [] => .error .truncated
  | w :: word, b :: text => if b == w then readWord word text else .error .malformed

/-- The rest of `null` after its first letter. -/
def nullRest : List UInt8 := [0x75, 0x6C, 0x6C]
/-- The rest of `true` after its first letter. -/
def trueRest : List UInt8 := [0x72, 0x75, 0x65]
/-- The rest of `false` after its first letter. -/
def falseRest : List UInt8 := [0x61, 0x6C, 0x73, 0x65]

/-! ## Lists and objects -/

/-- Where a list stands before its next element: `true` if there is one. -/
def atElement (first : Bool) (text : Bytes) : Reading Bool :=
  match skipBlanks text with
  | [] => .error .truncated
  | b :: rest =>
    if b == 0x5D then .ok (false, b :: rest)
    else if first then .ok (true, b :: rest)
    else if b == 0x2C then
      match skipBlanks rest with
      | [] => .error .truncated
      | c :: after => if c == 0x5D then .error .malformed else .ok (true, c :: after)
    else .error .malformed

/-- Where an object stands before its next member: `true` if there is one, after the quote that
opens its name. -/
def atMember (first : Bool) (text : Bytes) : Reading Bool :=
  match skipBlanks text with
  | [] => .error .truncated
  | b :: rest =>
    if b == 0x7D then .ok (false, b :: rest)
    else if first then if b == 0x22 then .ok (true, rest) else .error .malformed
    else if b == 0x2C then
      match skipBlanks rest with
      | [] => .error .truncated
      | c :: after => if c == 0x22 then .ok (true, after) else .error .malformed
    else .error .malformed

/-- Reads the colon between a name and its value. -/
def readColon (text : Bytes) : Except JsonFault Bytes :=
  match skipBlanks text with
  | [] => .error .truncated
  | b :: rest => if b == 0x3A then .ok rest else .error .malformed

/-- Reads the bracket that closes a list or an object; anything else there is an error. -/
def readClose (bracket : UInt8) (text : Bytes) : Except JsonFault Bytes :=
  match skipBlanks text with
  | [] => .error .truncated
  | b :: rest => if b == bracket then .ok rest else .error .malformed

/-- Reads elements up to the end of a list, at most `fuel` of them. -/
def readElements {α : Type} (element : Bytes → Reading α) :
    Nat → Bool → List α → Bytes → Reading (List α)
  | 0, _, _, _ => .error .truncated
  | fuel + 1, first, acc, text =>
    match atElement first text with
    | .error fault => .error fault
    | .ok (false, rest) => .ok (acc.reverse, rest)
    | .ok (true, rest) =>
      match element rest with
      | .error fault => .error fault
      | .ok (v, rest) => readElements element fuel false (v :: acc) rest

/-- Reads members up to the end of an object, at most `fuel` of them. -/
def readMembers (value : Bytes → Reading Json) :
    Nat → Bool → List (String × Json) → Bytes → Except JsonFault (List (String × Json) × Bytes)
  | 0, _, _, _ => .error .truncated
  | fuel + 1, first, acc, text =>
    match atMember first text with
    | .error fault => .error fault
    | .ok (false, rest) => .ok (acc.reverse, rest)
    | .ok (true, rest) => do
      let (name, rest) ← readString rest
      let rest ← readColon rest
      let (v, rest) ← value rest
      readMembers value fuel false ((name, v) :: acc) rest

/-! ## Values -/

/-- Reads a value in which lists and objects nest less than `depth` deep and have less than `room`
parts each. -/
def readValue (room : Nat) : Nat → Bytes → Except JsonFault (Json × Bytes)
  | 0, _ => .error .malformed
  | depth + 1, text =>
    match skipBlanks text with
    | [] => .error .truncated
    | b :: rest =>
      if b == 0x6E then (readWord nullRest rest).map fun rest => (.null, rest)
      else if b == 0x74 then (readWord trueRest rest).map fun rest => (.bool true, rest)
      else if b == 0x66 then (readWord falseRest rest).map fun rest => (.bool false, rest)
      else if b == 0x2D then readNumber false rest
      else if isDigit b then readNumber true (b :: rest)
      else if b == 0x22 then (readString rest).map fun (s, rest) => (.string s, rest)
      else if b == 0x5B then
        if depth = 0 then .error .malformed
        else do
          let (items, rest) ← readElements (readValue room depth) room true [] rest
          let rest ← readClose 0x5D rest
          return (.array items, rest)
      else if b == 0x7B then
        if depth = 0 then .error .malformed
        else do
          let (members, rest) ← readMembers (readValue room depth) room true [] rest
          let rest ← readClose 0x7D rest
          return (.object members, rest)
      else .error .malformed

/-- One more than the deepest nesting that is read. -/
def depthLimit : Nat := 128

/-- Reads a whole text with a given reader: only blanks may follow what it reads. -/
def readWhole {α : Type} (reader : Bytes → Reading α) (text : Bytes) : Except JsonFault α :=
  match reader text with
  | .error fault => .error fault
  | .ok (v, rest) => if (skipBlanks rest).isEmpty then .ok v else .error .malformed

/-- More parts than a list or an object in a text can have. -/
def roomFor (text : Bytes) : Nat := text.length + 1

/-- The value of a text, with the members of its objects as they stand. -/
def parse (text : Bytes) : Except JsonFault Json :=
  readWhole (readValue (roomFor text) depthLimit) text

end ResilientClient.Json
