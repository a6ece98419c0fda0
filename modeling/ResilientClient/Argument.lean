/-
The arguments of an invocation, one for each parameter of the method.
-/
import ResilientClient.Body

namespace ResilientClient

/-- One argument. -/
inductive Argument where
  /-- No value; placeholders bound to it stay as they are. -/
  | absent
  | value (text : String)
  | values (texts : List String)
  /-- Names with their values, for query and header maps. -/
  | map (entries : List (String × List String))
  | body (body : RequestBody)
deriving DecidableEq, Repr

namespace Argument

/-- The map of single values. -/
def ofPairs (pairs : List (String × String)) : Argument :=
  .map (pairs.map fun pair => (pair.1, [pair.2]))

/-- The decimal text of an integer. -/
def ofInt (n : Int) : Argument := .value (toString n)

def ofBool (b : Bool) : Argument := .value (if b then "true" else "false")

/-- The value, or nothing. -/
def ofOption : Option String → Argument
  | none => .absent
  | some text => .value text

/-- The values that an argument gives to a placeholder. -/
def placeholderValues? : Argument → Option (List String)
  | .value text => some [text]
  | .values texts => some texts
  | .absent | .map _ | .body _ => none

/-- The pairs of a map, each value with its name. -/
def flatten (entries : List (String × List String)) : List (String × String) :=
  entries.flatMap fun entry => entry.2.map fun value => (entry.1, value)

end Argument

end ResilientClient
