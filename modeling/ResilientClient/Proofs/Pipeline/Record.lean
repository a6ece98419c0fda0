/-
What is written down on a path. A list that grows at its front is a record, and what it gains in the
writes of a path are the entries that the path adds to it (`gainedIn`). Notes are writes to the timeline,
and the work of a collaborator is a path of its own that leaves everything else as it is.
-/
import ResilientClient.Pipeline.World
import ResilientClient.Proofs.Fiber.Path

open ResilientClient.Fiber

namespace ResilientClient

variable {σ τ α ε : Type}

/-! ## Gains -/

@[simp] theorem gained_self (l : List α) : gained l l = [] := by simp [gained]

@[simp] theorem gained_cons (a : α) (l : List α) : gained l (a :: l) = [a] := gained_append [a] l

/-- What a list that grows at its front gains in writes, in order. -/
def gainedIn (part : σ → List α) (ws : List (Write σ)) : List α :=
  ws.flatMap fun w => gained (part w.before) (part w.after)

section Gains

variable {part : σ → List α} {ws vs : List (Write σ)} {w : Write σ}

@[simp] theorem gainedIn_nil : gainedIn part ([] : List (Write σ)) = [] := rfl

@[simp] theorem gainedIn_cons :
    gainedIn part (w :: ws) = gained (part w.before) (part w.after) ++ gainedIn part ws := rfl

@[simp] theorem gainedIn_append : gainedIn part (ws ++ vs) = gainedIn part ws ++ gainedIn part vs :=
  List.flatMap_append

theorem gainedIn_of_kept (h : ∀ w ∈ ws, part w.after = part w.before) : gainedIn part ws = [] := by
  refine List.flatMap_eq_nil_iff.2 fun w hw => ?_
  rw [h w hw, gained_self]

theorem gainedIn_map (f : σ → τ) (part : τ → List α) (ws : List (Write σ)) :
    gainedIn part (ws.map (Write.map f)) = gainedIn (fun s => part (f s)) ws := by
  unfold gainedIn; rw [List.flatMap_map]; rfl

end Gains

/-! ## Notes and collaborators -/

section Stages

variable {t t' : Instant} {s s' : World ε} {ws : List (Write (World ε))}

/-- A note is one write, to the timeline. -/
theorem ends_note {os : List Occurrence} {u : Unit} (h : Ends (Stage.note os) t s ws u t' s') :
    t' = t ∧ s' = s.note os ∧ ws = [⟨t, s, s.note os⟩] := by
  obtain ⟨rfl, rfl, rfl⟩ := ends_modify.1 h
  exact ⟨rfl, rfl, rfl⟩

/-- The work of a collaborator leaves the breakers and the timeline as they are. -/
theorem ends_outside {work : Fiber (Outside ε) α} {a : α} (h : Ends (Stage.outside work) t s ws a t' s') :
    Ends work t s.outside (ws.map (Write.map World.outside)) a t' s'.outside ∧
      ∀ w ∈ ws, w.after = { w.before with outside := w.after.outside } :=
  ends_zoom (fun _ _ => rfl) work h

theorem writes_note {P : Write (World ε) → Prop} {os : List Occurrence} (h : ∀ t w, P ⟨t, w, w.note os⟩) :
    Writes P (Stage.note os) := by
  intro t s ws u t' s' hends w hw
  obtain ⟨-, -, rfl⟩ := ends_note hends
  obtain rfl := List.mem_singleton.1 hw
  exact h _ _

end Stages

end ResilientClient
