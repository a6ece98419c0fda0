/-
JSON values and their compact text: no blanks, the members of an object in the order of their
names, integers in decimal, other numbers as the shortest decimal that reads back.
-/
import ResilientClient.Binary64.Shortest
import ResilientClient.Bytes

namespace ResilientClient

/-- A JSON value; an integer of 64 bits is kept apart from the other numbers. -/
inductive Json where
  | null
  | bool (b : Bool)
  | integer (n : Int)
  | float (x : Binary64)
  | string (s : String)
  | array (items : List Json)
  | object (members : List (String × Json))
deriving Repr

namespace Json

instance : Inhabited Json := ⟨.null⟩

/-! ## Members -/

/-- The order of names by their UTF-8 form. -/
def nameLess (a b : String) : Bool := a < b

/-- Puts a member into a list sorted by name; it replaces the one of the same name. -/
def insertMember (name : String) (value : Json) : List (String × Json) → List (String × Json)
  | [] => [(name, value)]
  | (n, v) :: rest =>
    if n = name then (name, value) :: rest
    else if nameLess name n then (name, value) :: (n, v) :: rest
    else (n, v) :: insertMember name value rest

/-- The members sorted by name; of several with one name the last is kept. -/
def sortMembers (members : List (String × Json)) : List (String × Json) :=
  members.foldl (fun sorted member => insertMember member.1 member.2 sorted) []

/-- The member of a name. -/
def member? (name : String) : Json → Option Json
  | .object members => (members.find? fun member => member.1 == name).map Prod.snd
  | _ => none

/-! ## Text -/

/-- How the exponent of a number is written. -/
structure ExponentFormat where
  /-- A positive exponent has a sign. -/
  plus : Bool

/-- The written form of an exponent. -/
def ExponentFormat.text (format : ExponentFormat) (exponent : Int) : String :=
  (if format.plus ∧ 0 < exponent then "e+" else "e") ++ toString exponent

/-- The text of a number `± digits · 10 ^ p`: positional from `10 ^ -5` up to `10 ^ 16`, with a
point in every case, and with an exponent outside that range. -/
def decimalText (format : ExponentFormat) (negative : Bool) (digits : Nat) (p : Int) : String :=
  let ds := Nat.toDigits 10 digits
  let sign := if negative then "-" else ""
  let point : Int := ds.length + p
  if digits = 0 then sign ++ "0.0"
  else if 0 ≤ p ∧ point ≤ 16 then
    sign ++ String.ofList (ds ++ List.replicate p.toNat '0') ++ ".0"
  else if 0 < point ∧ point ≤ 16 then
    sign ++ String.ofList (ds.take point.toNat ++ '.' :: ds.drop point.toNat)
  else if -5 < point ∧ point ≤ 0 then
    sign ++ "0." ++ String.ofList (List.replicate (-point).toNat '0' ++ ds)
  else
    let mantissa := match ds with
      | [d] => [d]
      | d :: rest => d :: '.' :: rest
      | [] => []
    sign ++ String.ofList mantissa ++ format.text (point - 1)

/-- The text of a number; one that is not finite is written `null`. -/
def floatText (format : ExponentFormat) (x : Binary64) : String :=
  match x.value with
  | .finite negative 0 _ => decimalText format negative 0 0
  | .finite negative m e =>
    let (digits, p) := Binary64.shortest m e
    decimalText format negative digits p
  | _ => "null"

/-- The written form of one character of a string. -/
def charText (c : Char) : List Char :=
  if c = '"' then ['\\', '"']
  else if c = '\\' then ['\\', '\\']
  else if c = '\n' then ['\\', 'n']
  else if c = '\r' then ['\\', 'r']
  else if c = '\t' then ['\\', 't']
  else if c.toNat = 0x08 then ['\\', 'b']
  else if c.toNat = 0x0C then ['\\', 'f']
  else if c.toNat < 0x20 then
    ['\\', 'u', '0', '0'] ++ Bytes.lowerHex c.toNat.toUInt8
  else [c]

/-- A string between quotes. -/
def stringText (s : String) : String :=
  String.ofList ('"' :: s.toList.flatMap charText ++ ['"'])

/-- In JSON text a positive exponent has a sign. -/
def exponentFormat : ExponentFormat := ⟨true⟩

mutual
/-- A text with the compact text of a value behind it, the members as they stand. -/
def renderOnto (written : String) : Json → String
  | .null => written ++ "null"
  | .bool true => written ++ "true"
  | .bool false => written ++ "false"
  | .integer n => written ++ toString n
  | .float x => written ++ floatText exponentFormat x
  | .string s => written ++ stringText s
  | .array items => renderItemsOnto (written ++ "[") "" items ++ "]"
  | .object members => renderMembersOnto (written ++ "\x7b") "" members ++ "\x7d"

/-- A text with the compact texts of values behind it: the separator before the first one, commas
before the others. -/
def renderItemsOnto (written separator : String) : List Json → String
  | [] => written
  | v :: rest => renderItemsOnto (renderOnto (written ++ separator) v) "," rest

/-- A text with the compact texts of members behind it: the separator before the first one, commas
before the others. -/
def renderMembersOnto (written separator : String) : List (String × Json) → String
  | [] => written
  | (n, v) :: rest =>
    renderMembersOnto (renderOnto (written ++ separator ++ stringText n ++ ":") v) "," rest
end

/-- The compact text of a value, its members as they stand. -/
def render (value : Json) : String := renderOnto "" value

mutual
/-- The value with the members of every object sorted by name, the last of a name kept. -/
def normalize : Json → Json
  | .array items => .array (normalizeItems items)
  | .object members => .object (sortMembers (normalizeMembers members))
  | v => v

def normalizeItems : List Json → List Json
  | [] => []
  | v :: rest => normalize v :: normalizeItems rest

def normalizeMembers : List (String × Json) → List (String × Json)
  | [] => []
  | (n, v) :: rest => (n, normalize v) :: normalizeMembers rest
end

end Json

end ResilientClient
