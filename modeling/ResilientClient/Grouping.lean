/-
Lists of groups: each key stands once, in the order of its first appearance, with the values that
were added under it.
-/
namespace ResilientClient.Grouping

/-- Applies `change` to the values of the first key that is the same as `key`; a new key stands
last, with what `change` makes of no values. -/
def update {κ α : Type} (same : κ → κ → Bool) (change : List α → List α) (key : κ) :
    List (κ × List α) → List (κ × List α)
  | [] => [(key, change [])]
  | group :: rest =>
    if same group.1 key then (group.1, change group.2) :: rest
    else group :: update same change key rest

/-- Adds a value after those already there under a key. -/
def add {κ α : Type} (same : κ → κ → Bool) (key : κ) (value : α) (groups : List (κ × List α)) :
    List (κ × List α) :=
  update same (· ++ [value]) key groups

end ResilientClient.Grouping
