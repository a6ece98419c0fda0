/-
Writes after which a fiber has no more time. Once it has made a write of some kind it never waits again: at its
next rest it has ended, at that instant, with a result that is known, and all that it has still written is known
as well (`EndsAtOnce`). This is shown part by part; a time limit does not get in between (`EndsAtOnce.within`).
-/
import ResilientClient.Proofs.Fiber.Path

namespace ResilientClient.Fiber

variable {σ α β : Type}

/-! ## Paths to a rest -/

section Rests

variable {t t' : Instant} {s s' : σ} {ws : List (Write σ)}

/-- A sequence rests in its first part or, after that has ended, in the second one. -/
theorem goes_andThen_rests (x : Fiber σ α) {f : α → Fiber σ β} {y : Fiber σ β} (hy : y.Rests)
    (h : Goes (x.andThen f) t s ws y t' s') :
    (∃ wait drop rest, Goes x t s ws (pause wait drop rest) t' s') ∨
    ∃ us a t₁ s₁ vs, ws = us ++ vs ∧ Ends x t s us a t₁ s₁ ∧ Goes (f a) t₁ s₁ vs y t' s' := by
  cases y with
  | done b => exact .inr ((ends_andThen _ _).1 h)
  | pause wait drop rest =>
    rcases goes_andThen_pause x h with ⟨rest', hx⟩ | hf
    · exact .inl ⟨wait, drop, rest', hx⟩
    · exact .inr hf
  | look | store => exact hy.elim

theorem goes_protect {undo : σ → σ} (x : Fiber σ α) {y : Fiber σ α} (h : Goes (x.protect undo) t s ws y t' s') :
    ∃ z, y = z.protect undo ∧ Goes x t s ws z t' s' := by
  induction x generalizing t s ws with
  | done a => cases h; exact ⟨done a, rfl, .stay⟩
  | look next ih =>
    cases h with
    | stay => exact ⟨look next, rfl, .stay⟩
    | look h =>
      obtain ⟨z, hz, hgoes⟩ := ih t s h
      exact ⟨z, hz, .look hgoes⟩
  | store s₁ next ih =>
    cases h with
    | stay => exact ⟨store s₁ next, rfl, .stay⟩
    | store h =>
      obtain ⟨z, hz, hgoes⟩ := ih h
      exact ⟨z, hz, .store hgoes⟩
  | pause wait drop next ih =>
    cases h with
    | stay => exact ⟨pause wait drop next, rfl, .stay⟩
    | pause h =>
      obtain ⟨z, hz, hgoes⟩ := ih h
      exact ⟨z, hz, .pause hgoes⟩

/-- What waits within a time limit waits itself. -/
theorem goes_within_pause (x : Fiber σ α) {limit wait : Nat} {drop : σ → σ} {rest : Fiber σ (Option α)}
    (h : Goes (x.within limit) t s ws (pause wait drop rest) t' s') :
    ∃ w d z, Goes x t s ws (pause w d z) t' s' := by
  induction x generalizing limit t s ws with
  | done a => cases h
  | look next ih =>
    cases h with | look h =>
    obtain ⟨w, d, z, hgoes⟩ := ih t s h
    exact ⟨w, d, z, .look hgoes⟩
  | store s₁ next ih =>
    cases h with | store h =>
    obtain ⟨w, d, z, hgoes⟩ := ih h
    exact ⟨w, d, z, .store hgoes⟩
  | pause own undo next ih =>
    have hstays : ∀ t s, Goes (pause own undo next) t s [] (pause own undo next) t s := fun t s => .stay
    unfold within at h
    split at h
    · cases h with
      | stay => exact ⟨_, _, _, hstays _ _⟩
      | pause h =>
        obtain ⟨w, d, z, hgoes⟩ := ih h
        exact ⟨w, d, z, .pause hgoes⟩
    · -- after the last wait only the drop is left
      unfold cutOff pauseFor at h
      split at h
      · cases h with | look h => cases h with | store h => cases h
      · cases h with
        | stay => exact ⟨_, _, _, hstays _ _⟩
        | pause h => cases h with | look h => cases h with | store h => cases h

end Rests

/-! ## The end at once -/

/-- After a write of a kind the fiber never waits again. At its next rest it has ended, with `result` and at the
instant of that write; the writes around it, from some point of the path on, and the last state are as `closing`
says. -/
def EndsAtOnce (kind : Write σ → Prop) (result : α)
    (closing : List (Write σ) → Write σ → List (Write σ) → σ → Prop) (x : Fiber σ α) : Prop :=
  ∀ ⦃t s before w after y t' s'⦄, Goes x t s (before ++ w :: after) y t' s' → y.Rests → kind w →
    y = done result ∧ t' = w.time ∧ ∃ early mid, before = early ++ mid ∧ closing mid w after s'

section AtOnce

variable {kind : Write σ → Prop} {result : α} {closing : List (Write σ) → Write σ → List (Write σ) → σ → Prop}
  {x : Fiber σ α}

/-- A fiber that never makes such a write. -/
theorem endsAtOnce_of_never (h : Writes (fun w => ¬ kind w) x) : EndsAtOnce kind result closing x := by
  intro t s before w after y t' s' hgoes _ hkind
  exact absurd hkind (h.of_goes hgoes w (by simp))

/-- A fiber does not wait after such a write. -/
theorem EndsAtOnce.not_of_waits (h : EndsAtOnce kind result closing x) {wait : Nat} {drop : σ → σ}
    {rest : Fiber σ α} {t t' : Instant} {s s' : σ} {ws : List (Write σ)}
    (hgoes : Goes x t s ws (pause wait drop rest) t' s') : ∀ w ∈ ws, ¬ kind w := by
  intro w hw hkind
  obtain ⟨before, after, rfl⟩ := List.append_of_mem hw
  cases (h hgoes trivial hkind).1

/-- In a row of two parts a write stands in the first or in the second one. -/
theorem split_of_append {us vs before after : List (Write σ)} {w : Write σ}
    (h : before ++ w :: after = us ++ vs) :
    (∃ after', us = before ++ w :: after' ∧ after = after' ++ vs) ∨
    ∃ before', before = us ++ before' ∧ vs = before' ++ w :: after := by
  rcases List.append_eq_append_iff.1 h with ⟨us', hus, hvs⟩ | hsecond
  · cases us' with
    | nil => exact .inr ⟨[], by simpa using hus.symm, by simpa using hvs.symm⟩
    | cons v after' =>
      obtain ⟨rfl, rfl⟩ := List.cons.inj hvs
      exact .inl ⟨after', hus, rfl⟩
  · exact .inr hsecond

/-- If such a write ends the first part, the second one has nothing more to do. -/
theorem EndsAtOnce.andThen {result' : β} {f : α → Fiber σ β} (hx : EndsAtOnce kind result closing x)
    (hdone : f result = done result') (hf : ∀ a, EndsAtOnce kind result' closing (f a)) :
    EndsAtOnce kind result' closing (x.andThen f) := by
  intro t s before w after y t' s' hgoes hy hkind
  rcases goes_andThen_rests x hy hgoes with ⟨wait, drop, rest, hwaits⟩ | ⟨us, a, t₁, s₁, vs, hws, hends, hrest⟩
  · exact absurd hkind (hx.not_of_waits hwaits w (by simp))
  · rcases split_of_append hws with ⟨after', rfl, rfl⟩ | ⟨before', rfl, rfl⟩
    · obtain ⟨hend, htime, hclosing⟩ := hx hends trivial hkind
      cases hend
      rw [hdone] at hrest
      cases hrest
      rw [List.append_nil]
      exact ⟨rfl, htime, hclosing⟩
    · obtain ⟨hend, htime, early, mid, rfl, hclosing⟩ := hf a hrest hy hkind
      exact ⟨hend, htime, us ++ early, mid, (List.append_assoc ..).symm, hclosing⟩

/-- A part that never makes such a write, and what comes after it. -/
theorem endsAtOnce_then {result' : β} {f : α → Fiber σ β} (hx : Writes (fun w => ¬ kind w) x)
    (hf : ∀ a, EndsAtOnce kind result' closing (f a)) : EndsAtOnce kind result' closing (x.andThen f) := by
  intro t s before w after y t' s' hgoes hy hkind
  rcases goes_andThen_rests x hy hgoes with ⟨wait, drop, rest, hwaits⟩ | ⟨us, a, t₁, s₁, vs, hws, hends, hrest⟩
  · exact absurd hkind (hx.of_goes hwaits w (by simp))
  · rcases split_of_append hws with ⟨after', rfl, rfl⟩ | ⟨before', rfl, rfl⟩
    · exact absurd hkind (hx hends w (by simp))
    · obtain ⟨hend, htime, early, mid, rfl, hclosing⟩ := hf a hrest hy hkind
      exact ⟨hend, htime, us ++ early, mid, (List.append_assoc ..).symm, hclosing⟩

theorem EndsAtOnce.protect (h : EndsAtOnce kind result closing x) (undo : σ → σ) :
    EndsAtOnce kind result closing (x.protect undo) := by
  intro t s before w after y t' s' hgoes hy hkind
  obtain ⟨z, rfl, hz⟩ := goes_protect x hgoes
  have hrests : z.Rests := by cases z <;> exact hy
  obtain ⟨rfl, hrest⟩ := h hz hrests hkind
  exact ⟨rfl, hrest⟩

/-- No time limit comes after such a write, if what is dropped at the limit is none itself. -/
theorem EndsAtOnce.within (h : EndsAtOnce kind result closing x) (limit : Nat)
    (hdrop : ∀ ⦃t s ws wait drop rest t' s'⦄, Goes x t s ws (pause wait drop rest) t' s' →
      ∀ t₁ s₁, ¬ kind ⟨t₁, s₁, drop s₁⟩) :
    EndsAtOnce kind (some result) closing (x.within limit) := by
  intro t s before w after y t' s' hgoes hy hkind
  cases y with
  | pause wait drop rest =>
    obtain ⟨wait', drop', rest', hwaits⟩ := goes_within_pause x hgoes
    exact absurd hkind (h.not_of_waits hwaits w (by simp))
  | done o =>
    -- what is cut off still waits, so it has made no such write
    rcases ends_within x hgoes with ⟨a, rfl, hends, -⟩ |
      ⟨us, wait, drop, rest, t₁, s₁, last, -, hwaits, -, -, hws, -, -⟩
    · obtain ⟨hend, hrest⟩ := h hends trivial hkind
      cases hend
      exact ⟨rfl, hrest⟩
    · have hmem : w ∈ us ++ [⟨t + limit, last, drop last⟩] := hws ▸ by simp
      rcases List.mem_append.1 hmem with hmem | hmem
      · exact absurd hkind (h.not_of_waits hwaits w hmem)
      · obtain rfl := List.mem_singleton.1 hmem
        exact absurd hkind (hdrop hwaits _ _)
  | look | store => exact hy.elim

end AtOnce

end ResilientClient.Fiber
