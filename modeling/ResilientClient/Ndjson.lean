/-
Newline-delimited JSON: the lines of a body, wherever its chunks end, each decoded on its own.
Blank lines are passed over, a last line needs no newline, and a failure of the body ends it.
-/
import ResilientClient.Body
import ResilientClient.Json.Decoder

namespace ResilientClient.Ndjson

/-- The line feed. -/
def newline : UInt8 := 0x0A

/-- The lines that end in a text behind an unfinished line, and the line that is unfinished then;
unfinished lines are held in reverse. -/
def split (line : Bytes) : Bytes → List Bytes × Bytes
  | [] => ([], line)
  | b :: rest =>
    if b == newline then
      let (lines, last) := split [] rest
      (line.reverse :: lines, last)
    else split (b :: line) rest

/-- The lines without the blanks around them, the blank ones left out. -/
def significant (lines : List Bytes) : List Bytes :=
  (lines.map Bytes.trim).filter fun line => !line.isEmpty

/-- What a decoder makes of a text. -/
def decode {α : Type} (decoder : Json.Decoder α) (line : Bytes) : Except Error α :=
  match Json.Decoder.run decoder line with
  | .ok v => .ok v
  | .error fault => .error (.json fault)

/-- The values of a body behind an unfinished line, which is held in reverse. -/
def readBehind {α : Type} (decoder : Json.Decoder α) (line : Bytes) :
    List (Except Error Bytes) → List (Except Error α)
  | [] => (significant [line.reverse]).map (decode decoder)
  | .error e :: _ => [.error e]
  | .ok chunk :: rest =>
    let (lines, line) := split line chunk
    (significant lines).map (decode decoder) ++ readBehind decoder line rest

/-- The values of a body. -/
def read {α : Type} (decoder : Json.Decoder α) (items : List (Except Error Bytes)) :
    List (Except Error α) :=
  readBehind decoder [] items

end ResilientClient.Ndjson
