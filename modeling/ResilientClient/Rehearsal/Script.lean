/-
Scripts for peers that are not there: answers in the order in which they are given, the last one
again and again.
-/
import ResilientClient.Pipeline.Call

namespace ResilientClient.Rehearsal

/-- One answer: a wait, then a response or a failure. -/
structure Cue where
  wait : Duration
  outcome : Outcome

/-- The answers of one peer. -/
abbrev Script := List Cue

/-- The failure of a request that no script answers. -/
def unanswered : Error := .transport .exchange "no route"

/-- Gives the answer with the number `n`. -/
def Script.answer {σ : Type} (script : Script) (n : Nat) : Fiber σ Outcome :=
  match script[min n (script.length - 1)]? with
  | some cue => (Fiber.sleep cue.wait).andThen fun _ => .done cue.outcome
  | none => .done (.error unanswered)

end ResilientClient.Rehearsal
