/-
Joining of texts with a separator between neighbours.
-/
namespace ResilientClient.Text

/-- The texts one after the other, with a separator between neighbours. -/
def join (separator : String) : List String → String
  | [] => ""
  | text :: rest => rest.foldl (fun joined next => joined ++ separator ++ next) text

theorem join_nil (separator : String) : join separator [] = "" := rfl

theorem join_singleton (separator text : String) : join separator [text] = text := rfl

/-- What is joined already stays in front. -/
theorem foldl_append (separator front text : String) (rest : List String) :
    rest.foldl (fun joined next => joined ++ separator ++ next) (front ++ text) =
      front ++ rest.foldl (fun joined next => joined ++ separator ++ next) text := by
  induction rest generalizing text with
  | nil => rfl
  | cons next rest ih =>
    simp only [List.foldl_cons]
    rw [← ih]
    simp [String.append_assoc]

theorem join_cons_cons (separator text next : String) (rest : List String) :
    join separator (text :: next :: rest) = text ++ separator ++ join separator (next :: rest) :=
  foldl_append separator (text ++ separator) next rest

end ResilientClient.Text
