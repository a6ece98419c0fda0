/-
Paths of a fiber that runs among others: from a time and a state to what is left of it, with the writes
that it makes on the way. Up to its next wait it is alone; while it waits, others may turn the state into
any other. What holds of all paths holds of every run, alone or together with other fibers
(`ends_run`). A path through a sequence is one through its parts (`ends_andThen`), and a path through a
time limit is one that ends in time, or one that still has to wait when the limit is reached
(`ends_within`).
-/
import ResilientClient.Fiber.Lemmas
import Mathlib.Tactic

namespace ResilientClient.Fiber

variable {σ τ α β : Type}

/-! ## Writes and paths -/

/-- A change of the state: its time, and the states before and after it. -/
structure Write (σ : Type) where
  time : Instant
  before : σ
  after : σ

/-- The change of a part of the state. -/
def Write.map (part : σ → τ) (w : Write σ) : Write τ := ⟨w.time, part w.before, part w.after⟩

/-- A fiber goes on to what is left of it, with the writes that it makes on the way. -/
inductive Goes : Fiber σ α → Instant → σ → List (Write σ) → Fiber σ α → Instant → σ → Prop
  | stay {x : Fiber σ α} {t : Instant} {s : σ} : Goes x t s [] x t s
  | look {next : Instant → σ → Fiber σ α} {t : Instant} {s : σ} {ws : List (Write σ)}
      {y : Fiber σ α} {t' : Instant} {s' : σ} :
      Goes (next t s) t s ws y t' s' → Goes (look next) t s ws y t' s'
  | store {s₁ : σ} {next : Fiber σ α} {t : Instant} {s : σ} {ws : List (Write σ)} {y : Fiber σ α}
      {t' : Instant} {s' : σ} :
      Goes next t s₁ ws y t' s' → Goes (store s₁ next) t s (⟨t, s, s₁⟩ :: ws) y t' s'
  /-- After a wait the state is what others have made of it. -/
  | pause {wait : Nat} {drop : σ → σ} {next : Fiber σ α} {t : Instant} {s s₁ : σ}
      {ws : List (Write σ)} {y : Fiber σ α} {t' : Instant} {s' : σ} :
      Goes next (t + wait) s₁ ws y t' s' → Goes (pause wait drop next) t s ws y t' s'

/-- A fiber goes on to its end. -/
def Ends (x : Fiber σ α) (t : Instant) (s : σ) (ws : List (Write σ)) (a : α) (t' : Instant) (s' : σ) :
    Prop :=
  Goes x t s ws (done a) t' s'

section Paths

variable {x y z : Fiber σ α} {next : Fiber σ α} {t t₁ t' : Instant} {s s₁ s' : σ}
  {ws vs : List (Write σ)} {a b : α} {wait : Nat} {drop : σ → σ}

theorem Goes.trans (h : Goes x t s ws y t₁ s₁) (h' : Goes y t₁ s₁ vs z t' s') :
    Goes x t s (ws ++ vs) z t' s' := by
  induction h with
  | stay => exact h'
  | look _ ih => exact .look (ih h')
  | store _ ih => exact .store (ih h')
  | pause _ ih => exact .pause (ih h')

@[simp] theorem ends_done : Ends (done a) t s ws b t' s' ↔ ws = [] ∧ b = a ∧ t' = t ∧ s' = s := by
  constructor
  · intro h; cases h; exact ⟨rfl, rfl, rfl, rfl⟩
  · rintro ⟨rfl, rfl, rfl, rfl⟩; exact .stay

@[simp] theorem ends_look {next : Instant → σ → Fiber σ α} :
    Ends (look next) t s ws a t' s' ↔ Ends (next t s) t s ws a t' s' := by
  constructor
  · intro h; cases h with | look h => exact h
  · exact fun h => Goes.look h

@[simp] theorem ends_store :
    Ends (store s₁ next) t s ws a t' s' ↔ ∃ vs, ws = ⟨t, s, s₁⟩ :: vs ∧ Ends next t s₁ vs a t' s' := by
  constructor
  · intro h; cases h with | store h => exact ⟨_, rfl, h⟩
  · rintro ⟨vs, rfl, h⟩; exact Goes.store h

@[simp] theorem ends_pause :
    Ends (pause wait drop next) t s ws a t' s' ↔ ∃ s₁, Ends next (t + wait) s₁ ws a t' s' := by
  constructor
  · intro h; cases h with | pause h => exact ⟨_, h⟩
  · rintro ⟨s₁, h⟩; exact Goes.pause h

/-- The writes of a fiber that runs alone. -/
def trail (fiber : Fiber σ α) (t : Instant) (s : σ) : List (Write σ) :=
  match fiber with
  | done _ => []
  | look next => (next t s).trail t s
  | store s' next => ⟨t, s, s'⟩ :: next.trail t s'
  | pause w _ next => next.trail (t + w) s

/-- A run is a path on which nobody else changes the state. -/
theorem ends_trail (x : Fiber σ α) : ∀ (t : Instant) (s : σ),
    Ends x t s (x.trail t s) (x.run t s).1 (x.run t s).2.1 (x.run t s).2.2 := by
  induction x with
  | done a => exact fun t s => .stay
  | look next ih => exact fun t s => .look (ih t s t s)
  | store s₁ next ih => exact fun t s => .store (ih t s₁)
  | pause wait drop next ih => exact fun t s => .pause (ih (t + wait) s)

theorem ends_run (x : Fiber σ α) (t : Instant) (s : σ) : ∃ ws,
    Ends x t s ws (x.run t s).1 (x.run t s).2.1 (x.run t s).2.2 :=
  ⟨_, ends_trail x t s⟩

/-- Time does not go back. -/
theorem Goes.time_le (h : Goes x t s ws y t' s') : t ≤ t' := by
  induction h with
  | stay => exact Nat.le_refl _
  | look _ ih => exact ih
  | store _ ih => exact ih
  | pause _ ih => exact Nat.le_trans (Nat.le_add_right _ _) ih

end Paths

/-! ## Undisturbed parts -/

/-- Nobody else changes a part of the state: each write finds it as the one before has left it. -/
inductive Carried (part : σ → τ) : τ → List (Write σ) → τ → Prop
  | nil {v : τ} : Carried part v [] v
  | cons {w : Write σ} {ws : List (Write σ)} {v : τ} :
      Carried part (part w.after) ws v → Carried part (part w.before) (w :: ws) v

section Undisturbed

variable {part : σ → τ} {v v' : τ} {w : Write σ} {ws vs : List (Write σ)}

@[simp] theorem carried_nil : Carried part v [] v' ↔ v' = v := by
  constructor
  · intro h; cases h; rfl
  · rintro rfl; exact .nil

@[simp] theorem carried_cons :
    Carried part v (w :: ws) v' ↔ part w.before = v ∧ Carried part (part w.after) ws v' := by
  constructor
  · intro h; cases h with | cons h => exact ⟨rfl, h⟩
  · rintro ⟨rfl, h⟩; exact .cons h

theorem carried_append :
    Carried part v (ws ++ vs) v' ↔ ∃ u, Carried part v ws u ∧ Carried part u vs v' := by
  induction ws generalizing v with
  | nil => simp
  | cons w ws ih => simp [ih, and_assoc]

/-- Writes that leave the part as it is carry it to their end. -/
theorem Carried.of_kept (h : Carried part v ws v') (hkept : ∀ w ∈ ws, part w.after = part w.before) :
    v' = v := by
  induction h with
  | nil => rfl
  | cons _ ih =>
    rw [ih fun w hw => hkept w (List.mem_cons_of_mem _ hw)]
    exact hkept _ List.mem_cons_self

/-- A fiber that runs alone is undisturbed. -/
theorem carried_trail (part : σ → τ) (x : Fiber σ α) : ∀ (t : Instant) (s : σ),
    Carried part (part s) (x.trail t s) (part (x.run t s).2.2) := by
  induction x with
  | done a => exact fun t s => .nil
  | look next ih => exact fun t s => ih t s t s
  | store s₁ next ih => exact fun t s => carried_cons.2 ⟨rfl, ih t s₁⟩
  | pause wait drop next ih => exact fun t s => ih (t + wait) s

end Undisturbed

/-! ## Sequences -/

section Sequences

variable {t t' : Instant} {s s' : σ} {ws : List (Write σ)} {b : β}

theorem ends_andThen (x : Fiber σ α) (f : α → Fiber σ β) :
    Ends (x.andThen f) t s ws b t' s' ↔ ∃ ws₁ a t₁ s₁ ws₂, ws = ws₁ ++ ws₂ ∧
      Ends x t s ws₁ a t₁ s₁ ∧ Ends (f a) t₁ s₁ ws₂ b t' s' := by
  constructor
  · intro h
    induction x generalizing t s ws with
    | done a => exact ⟨[], a, t, s, ws, rfl, .stay, h⟩
    | look next ih =>
      obtain ⟨ws₁, a, t₁, s₁, ws₂, hws, h₁, h₂⟩ := ih t s (ends_look.1 h)
      exact ⟨ws₁, a, t₁, s₁, ws₂, hws, ends_look.2 h₁, h₂⟩
    | store s₀ next ih =>
      obtain ⟨vs, rfl, hnext⟩ := ends_store.1 h
      obtain ⟨ws₁, a, t₁, s₁, ws₂, rfl, h₁, h₂⟩ := ih hnext
      exact ⟨_ :: ws₁, a, t₁, s₁, ws₂, rfl, .store h₁, h₂⟩
    | pause wait drop next ih =>
      obtain ⟨s₀, h⟩ := ends_pause.1 h
      obtain ⟨ws₁, a, t₁, s₁, ws₂, hws, h₁, h₂⟩ := ih h
      exact ⟨ws₁, a, t₁, s₁, ws₂, hws, ends_pause.2 ⟨s₀, h₁⟩, h₂⟩
  · rintro ⟨ws₁, a, t₁, s₁, ws₂, rfl, h₁, h₂⟩
    have hx : Goes (x.andThen f) t s ws₁ ((done a).andThen f) t₁ s₁ := by
      unfold Ends at h₁
      generalize done a = end₁ at h₁ ⊢
      induction h₁ with
      | stay => exact .stay
      | look _ ih => exact .look (ih h₂)
      | store _ ih => exact .store (ih h₂)
      | pause _ ih => exact .pause (ih h₂)
    exact hx.trans h₂

/-- A sequence that waits does so in its first part or, after that has ended, in the second one. -/
theorem goes_andThen_pause (x : Fiber σ α) {f : α → Fiber σ β} {wait : Nat} {drop : σ → σ} {rest : Fiber σ β}
    (h : Goes (x.andThen f) t s ws (pause wait drop rest) t' s') :
    (∃ rest', Goes x t s ws (pause wait drop rest') t' s') ∨
    ∃ us a t₁ s₁ vs, ws = us ++ vs ∧ Ends x t s us a t₁ s₁ ∧ Goes (f a) t₁ s₁ vs (pause wait drop rest) t' s' := by
  induction x generalizing t s ws with
  | done a => exact .inr ⟨[], a, t, s, ws, rfl, .stay, h⟩
  | look next ih =>
    cases h with | look h =>
    rcases ih t s h with ⟨rest', hx⟩ | ⟨us, a, t₁, s₁, vs, rfl, hx, hf⟩
    · exact .inl ⟨rest', .look hx⟩
    · exact .inr ⟨us, a, t₁, s₁, vs, rfl, .look hx, hf⟩
  | store s₀ next ih =>
    cases h with | store h =>
    rcases ih h with ⟨rest', hx⟩ | ⟨us, a, t₁, s₁, vs, rfl, hx, hf⟩
    · exact .inl ⟨rest', .store hx⟩
    · exact .inr ⟨_ :: us, a, t₁, s₁, vs, rfl, .store hx, hf⟩
  | pause w drop' next ih =>
    cases h with
    | stay => exact .inl ⟨next, .stay⟩
    | pause h =>
      rcases ih h with ⟨rest', hx⟩ | ⟨us, a, t₁, s₁, vs, rfl, hx, hf⟩
      · exact .inl ⟨rest', .pause hx⟩
      · exact .inr ⟨us, a, t₁, s₁, vs, rfl, .pause hx, hf⟩

@[simp] theorem ends_modifyGet {f : Instant → σ → α × σ} {a : α} :
    Ends (modifyGet f) t s ws a t' s' ↔
      ws = [⟨t, s, (f t s).2⟩] ∧ a = (f t s).1 ∧ t' = t ∧ s' = (f t s).2 := by
  simp only [modifyGet, ends_look, ends_store, ends_done]
  constructor
  · rintro ⟨vs, rfl, rfl, ha, ht, hs⟩; exact ⟨rfl, ha, ht, hs⟩
  · rintro ⟨rfl, ha, ht, hs⟩; exact ⟨[], rfl, rfl, ha, ht, hs⟩

@[simp] theorem ends_modify {f : σ → σ} {a : Unit} :
    Ends (modify f) t s ws a t' s' ↔ ws = [⟨t, s, f s⟩] ∧ t' = t ∧ s' = f s := by
  simp only [modify, ends_look, ends_store, ends_done]
  constructor
  · rintro ⟨vs, rfl, rfl, -, ht, hs⟩; exact ⟨rfl, ht, hs⟩
  · rintro ⟨rfl, ht, hs⟩; exact ⟨[], rfl, rfl, trivial, ht, hs⟩

@[simp] theorem ends_now {t₁ : Instant} :
    Ends now t s ws t₁ t' s' ↔ ws = [] ∧ t₁ = t ∧ t' = t ∧ s' = s := by
  simp only [now, ends_look, ends_done]

/-- To sleep is to wait, without a write. -/
theorem ends_sleep {d : Duration} {u : Unit} (h : Ends (sleep d) t s ws u t' s') : ws = [] := by
  unfold sleep pauseFor at h
  split at h
  · exact (ends_done.1 h).1
  · obtain ⟨s₁, h⟩ := ends_pause.1 h
    exact (ends_done.1 h).1

theorem time_of_sleep {d : Duration} {u : Unit} (h : Ends (sleep d) t s ws u t' s') : t' = t + waitOf d := by
  unfold sleep pauseFor at h
  split at h
  · rename_i hnone
    rw [hnone]
    exact (ends_done.1 h).2.2.1
  · obtain ⟨s₁, h⟩ := ends_pause.1 h
    exact (ends_done.1 h).2.2.1

/-- What is to be undone when the fiber is dropped does not matter while it is not. -/
theorem ends_protect (undo : σ → σ) (x : Fiber σ α) {a : α} :
    Ends (x.protect undo) t s ws a t' s' ↔ Ends x t s ws a t' s' := by
  induction x generalizing t s ws with
  | done a => rfl
  | look next ih => simp only [protect, ends_look, ih]
  | store s₁ next ih => simp only [protect, ends_store, ih]
  | pause wait drop next ih => simp only [protect, ends_pause, ih]

end Sequences

/-! ## Kinds of writes -/

/-- All writes on the paths of a fiber are of a kind. -/
def Writes (P : Write σ → Prop) (x : Fiber σ α) : Prop :=
  ∀ ⦃t s ws a t' s'⦄, Ends x t s ws a t' s' → ∀ w ∈ ws, P w

section Kinds

variable {P : Write σ → Prop} {t t' : Instant} {s s' : σ} {ws : List (Write σ)}

theorem writes_done (a : α) : Writes P (done a) := by
  intro t s ws b t' s' h w hw
  rw [(ends_done.1 h).1] at hw
  cases hw

theorem writes_now : Writes P (now : Fiber σ Instant) := by
  intro t s ws a t' s' h w hw
  rw [(ends_now.1 h).1] at hw
  cases hw

theorem writes_sleep (d : Duration) : Writes P (sleep d : Fiber σ Unit) := by
  intro t s ws a t' s' h w hw
  rw [ends_sleep h] at hw
  cases hw

/-- What a fiber has written on its way is part of what it writes to its end. -/
theorem Writes.of_goes {x y : Fiber σ α} (hx : Writes P x) (h : Goes x t s ws y t' s') : ∀ w ∈ ws, P w := by
  obtain ⟨vs, hrest⟩ := ends_run y t' s'
  exact fun w hw => hx (h.trans hrest) w (List.mem_append_left _ hw)

end Kinds

/-! ## Parts of the state -/

section Parts

variable {part : σ → τ} {put : τ → σ → σ} {t t' : Instant} {s s' : σ} {ws : List (Write σ)}

/-- A fiber that waits or has ended. -/
def Rests : Fiber σ α → Prop
  | done _ | pause .. => True
  | look _ | store .. => False

/-- A path of a fiber over a part of the state, up to where it waits or ends, is a path on that part, and of
the rest of the state it changes nothing. -/
theorem goes_zoom (hput : ∀ p s, part (put p s) = p) (x : Fiber τ α) {y : Fiber σ α} (hy : y.Rests)
    (h : Goes (x.zoom part put) t s ws y t' s') :
    ∃ z, y = z.zoom part put ∧ Goes x t (part s) (ws.map (Write.map part)) z t' (part s') ∧
      ∀ w ∈ ws, w.after = put (part w.after) w.before := by
  induction x generalizing t s ws with
  | done b =>
    cases h
    exact ⟨done b, rfl, .stay, by simp⟩
  | look next ih =>
    cases h with
    | stay => exact hy.elim
    | look h =>
      obtain ⟨z, hz, hx, hw⟩ := ih t (part s) h
      exact ⟨z, hz, .look hx, hw⟩
  | store p next ih =>
    cases h with
    | stay => exact hy.elim
    | look h =>
      cases h with
      | stay => exact hy.elim
      | store h =>
        obtain ⟨z, hz, hx, hw⟩ := ih h
        rw [hput] at hx
        have hfirst : Write.map part ⟨t, s, put p s⟩ = ⟨t, part s, p⟩ := by rw [Write.map, hput]
        refine ⟨z, hz, ?_, ?_⟩
        · rw [List.map_cons, hfirst]
          exact .store hx
        · intro w hmem
          rcases List.mem_cons.1 hmem with rfl | hmem
          · rw [hput]
          · exact hw w hmem
  | pause wait drop next ih =>
    cases h with
    | stay => exact ⟨pause wait drop next, rfl, .stay, by simp⟩
    | pause h =>
      obtain ⟨z, hz, hx, hw⟩ := ih h
      exact ⟨z, hz, .pause hx, hw⟩

theorem ends_zoom (hput : ∀ p s, part (put p s) = p) (x : Fiber τ α) {a : α}
    (h : Ends (x.zoom part put) t s ws a t' s') :
    Ends x t (part s) (ws.map (Write.map part)) a t' (part s') ∧
      ∀ w ∈ ws, w.after = put (part w.after) w.before := by
  have hrests : (done a : Fiber σ α).Rests := trivial
  obtain ⟨z, hz, hx, hw⟩ := goes_zoom hput x hrests h
  cases z with
  | done b => cases hz; exact ⟨hx, hw⟩
  | look | store | pause => cases hz

/-- The waits of a fiber over a part of the state are its own. -/
theorem goes_zoom_pause (hput : ∀ p s, part (put p s) = p) (x : Fiber τ α) {wait : Nat} {drop : σ → σ}
    {rest : Fiber σ α} (h : Goes (x.zoom part put) t s ws (pause wait drop rest) t' s') :
    ∃ drop' rest', Goes x t (part s) (ws.map (Write.map part)) (pause wait drop' rest') t' (part s') ∧
      drop = (fun s => put (drop' (part s)) s) ∧ ∀ w ∈ ws, w.after = put (part w.after) w.before := by
  have hrests : (pause wait drop rest).Rests := trivial
  obtain ⟨z, hz, hx, hw⟩ := goes_zoom hput x hrests h
  cases z with
  | pause w drop' rest' => cases hz; exact ⟨drop', rest', hx, rfl, hw⟩
  | done | look | store => cases hz

end Parts

/-! ## Time limits -/

/-- The end of a fiber that is cut off: its wait is undone, in whatever state others have left. -/
theorem ends_cutOff {wait : Nat} {drop : σ → σ} {t t' : Instant} {s s' : σ} {ws : List (Write σ)}
    {o : Option α} (h : Ends (cutOff wait drop) t s ws o t' s') :
    ∃ s₁, o = none ∧ ws = [⟨t + wait, s₁, drop s₁⟩] ∧ t' = t + wait ∧ s' = drop s₁ := by
  unfold cutOff pauseFor at h
  split at h
  · rename_i h0
    obtain ⟨vs, rfl, hend⟩ := ends_store.1 (ends_look.1 h)
    obtain ⟨rfl, rfl, rfl, rfl⟩ := ends_done.1 hend
    exact ⟨s, rfl, by rw [h0]; rfl, by rw [h0]; rfl, rfl⟩
  · obtain ⟨s₁, hlook⟩ := ends_pause.1 h
    obtain ⟨vs, rfl, hend⟩ := ends_store.1 (ends_look.1 hlook)
    obtain ⟨rfl, rfl, rfl, rfl⟩ := ends_done.1 hend
    exact ⟨s₁, rfl, rfl, rfl, rfl⟩

/-- Within a limit a fiber ends in time, or it is cut off at the limit, during a wait beyond it. -/
theorem ends_within (x : Fiber σ α) {limit : Nat} {t t' : Instant} {s s' : σ} {ws : List (Write σ)}
    {o : Option α} (h : Ends (x.within limit) t s ws o t' s') :
    (∃ a, o = some a ∧ Ends x t s ws a t' s' ∧ t' ≤ t + limit) ∨
    ∃ ws₁ wait drop rest t₁ s₁ s₂, o = none ∧ Goes x t s ws₁ (pause wait drop rest) t₁ s₁ ∧
      t₁ ≤ t + limit ∧ t + limit < t₁ + wait ∧ ws = ws₁ ++ [⟨t + limit, s₂, drop s₂⟩] ∧
      t' = t + limit ∧ s' = drop s₂ := by
  induction x generalizing limit t s ws with
  | done a =>
    obtain ⟨rfl, rfl, rfl, rfl⟩ := ends_done.1 h
    exact .inl ⟨a, rfl, .stay, Nat.le_add_right _ _⟩
  | look next ih =>
    rcases ih t s (ends_look.1 h) with ⟨a, ho, hx, ht⟩ | ⟨ws₁, wait, drop, rest, t₁, s₁, s₂, ho, hx, htail⟩
    · exact .inl ⟨a, ho, .look hx, ht⟩
    · exact .inr ⟨ws₁, wait, drop, rest, t₁, s₁, s₂, ho, .look hx, htail⟩
  | store s₀ next ih =>
    obtain ⟨vs, rfl, hnext⟩ := ends_store.1 h
    rcases ih hnext with ⟨a, ho, hx, ht⟩ | ⟨ws₁, wait, drop, rest, t₁, s₁, s₂, ho, hx, h₁, h₂, rfl, htail⟩
    · exact .inl ⟨a, ho, .store hx, ht⟩
    · exact .inr ⟨_ :: ws₁, wait, drop, rest, t₁, s₁, s₂, ho, .store hx, h₁, h₂, rfl, htail⟩
  | pause w drop next ih =>
    unfold within at h
    split at h
    · rename_i hle
      obtain ⟨s₀, h⟩ := ends_pause.1 h
      -- what is left of the limit after the wait ends at the same time
      have hsum : t + w + (limit - w) = t + limit := by lia
      rcases ih h with ⟨a, ho, hx, ht⟩ | ⟨ws₁, wait, drop', rest, t₁, s₁, s₂, ho, hx, htail⟩
      · exact .inl ⟨a, ho, .pause hx, hsum ▸ ht⟩
      · rw [hsum] at htail
        exact .inr ⟨ws₁, wait, drop', rest, t₁, s₁, s₂, ho, .pause hx, htail⟩
    · obtain ⟨s₁, ho, hws, ht, hs⟩ := ends_cutOff h
      exact .inr ⟨[], w, drop, next, t, s, s₁, ho, .stay, Nat.le_add_right _ _, by lia, hws, ht, hs⟩

end ResilientClient.Fiber
