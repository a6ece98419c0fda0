/-
Chains. Tasks that share a clock and a state write one after the other, and each write finds the state as the one
before has left it. A timed rule says of a write, with its time, from which mode of its task it leads to which; what
abides by a rule without times abides by it at every time (`Abides.timed`). The writes of tasks that all abide by a
timed rule are steps of it, and while a task is in a mode in which it must not wait no other one writes
(`Crowd.chain_run`).
-/
import ResilientClient.Proofs.Fiber.Abides

namespace ResilientClient

variable {σ μ α β : Type}

namespace Fiber

/-! ## Timed rules -/

/-- What a fiber may do in each mode, and when. -/
structure TimedRule (σ μ : Type) where
  /-- A write, with the modes before and after it. -/
  step : μ → Write σ → μ → Prop
  /-- The modes in which a fiber may wait. -/
  waits : μ → Prop

/-- From a mode, a time and a state on a fiber does what the rule allows, and it comes to an end as it should. What
is undone when it is dropped during a wait is allowed at any time. -/
def AbidesAt (R : TimedRule σ μ) (ends : μ → α → Prop) : Fiber σ α → μ → Instant → σ → Prop
  | .done a, m, _, _ => ends m a
  | .look next, m, t, s => AbidesAt R ends (next t s) m t s
  | .store s' next, m, t, s => ∃ m', R.step m ⟨t, s, s'⟩ m' ∧ AbidesAt R ends next m' t s'
  | .pause _ drop next, m, _, _ =>
    R.waits m ∧ (∀ t s, R.step m ⟨t, s, drop s⟩ m) ∧ ∀ t s, AbidesAt R ends next m t s

/-- A rule at any time. -/
def Rule.timed (R : Rule σ μ) : TimedRule σ μ := ⟨fun m w m' => R.step m w.before w.after m', R.waits⟩

section Parts

variable {R : TimedRule σ μ} {m : μ} {t : Instant} {s : σ} {x : Fiber σ α}

theorem abidesAt_andThen {mid : μ → α → Prop} {ends : μ → β → Prop} {f : α → Fiber σ β}
    (hx : AbidesAt R mid x m t s) (hf : ∀ m a t s, mid m a → AbidesAt R ends (f a) m t s) :
    AbidesAt R ends (x.andThen f) m t s := by
  induction x generalizing m t s with
  | done a => exact hf m a t s hx
  | look next ih => exact ih t s hx
  | store s' next ih =>
    obtain ⟨m', hstep, hnext⟩ := hx
    exact ⟨m', hstep, ih hnext⟩
  | pause wait drop next ih => exact ⟨hx.1, hx.2.1, fun t s => ih (hx.2.2 t s)⟩

theorem AbidesAt.ending {ends ends' : μ → α → Prop} (h : AbidesAt R ends x m t s)
    (hends : ∀ m a, ends m a → ends' m a) : AbidesAt R ends' x m t s := by
  induction x generalizing m t s with
  | done a => exact hends m a h
  | look next ih => exact ih t s h
  | store s' next ih =>
    obtain ⟨m', hstep, hnext⟩ := h
    exact ⟨m', hstep, ih hnext⟩
  | pause wait drop next ih => exact ⟨h.1, h.2.1, fun t s => ih (h.2.2 t s)⟩

theorem abidesAt_modifyGet {ends : μ → α → Prop} {f : Instant → σ → α × σ}
    (h : ∃ m', R.step m ⟨t, s, (f t s).2⟩ m' ∧ ends m' (f t s).1) : AbidesAt R ends (modifyGet f) m t s := h

/-- What every step keeps holds at the end. -/
theorem AbidesAt.keeping {ends : μ → α → Prop} {I : μ → Prop} (hI : ∀ m w m', R.step m w m' → I m → I m')
    (h : AbidesAt R ends x m t s) (hm : I m) : AbidesAt R (fun m' a => ends m' a ∧ I m') x m t s := by
  induction x generalizing m t s with
  | done a => exact ⟨h, hm⟩
  | look next ih => exact ih t s h hm
  | store s' next ih =>
    obtain ⟨m', hstep, hnext⟩ := h
    exact ⟨m', hstep, ih hnext (hI _ _ _ hstep hm)⟩
  | pause wait drop next ih => exact ⟨h.1, h.2.1, fun t s => ih (h.2.2 t s) hm⟩

/-- Within a limit a fiber comes to its end, or it is cut off in a mode in which it waits. -/
theorem abidesAt_within {ends : μ → α → Prop} {limit : Nat} (h : AbidesAt R ends x m t s) :
    AbidesAt R (fun m' a? => (∃ a, a? = some a ∧ ends m' a) ∨ a? = none ∧ R.waits m') (x.within limit) m t s := by
  induction x generalizing limit m t s with
  | done a => exact .inl ⟨a, rfl, h⟩
  | look next ih => exact ih t s h
  | store s' next ih =>
    obtain ⟨m', hstep, hnext⟩ := h
    exact ⟨m', hstep, ih hnext⟩
  | pause wait drop next ih =>
    obtain ⟨hwaits, hdrop, hnext⟩ := h
    unfold within
    split
    · exact ⟨hwaits, hdrop, fun t s => ih (hnext t s)⟩
    · have hcut : ∀ t s, AbidesAt R (fun m' a? => (∃ a, a? = some a ∧ ends m' a) ∨ a? = none ∧ R.waits m')
          (look fun _ s => store (drop s) (done none)) m t s := fun t s => ⟨m, hdrop t s, .inr ⟨rfl, hwaits⟩⟩
      unfold cutOff pauseFor
      split
      · exact hcut t s
      · exact ⟨hwaits, hdrop, hcut⟩

/-- What abides by a rule does so at every time. -/
theorem Abides.timed {R : Rule σ μ} {ends : μ → α → Prop} (h : Abides R ends x m s) (t : Instant) :
    AbidesAt R.timed ends x m t s := by
  induction x generalizing m t s with
  | done a => exact h
  | look next ih => exact ih t s (h t) t
  | store s' next ih =>
    obtain ⟨m', hstep, hnext⟩ := h
    exact ⟨m', hstep, ih hnext t⟩
  | pause wait drop next ih => exact ⟨h.1, fun _ => h.2.1, fun t s => ih (h.2.2 s) t⟩

/-- What obeys a law stays in a mode in which all that the law allows is allowed. -/
theorem Obeys.abidesAt {K : σ → σ → Prop} (h : Obeys K x) (hlaw : ∀ t s s', K s s' → R.step m ⟨t, s, s'⟩ m)
    (hwaits : R.waits m) (t : Instant) (s : σ) : AbidesAt R (fun m' _ => m' = m) x m t s := by
  have hx := h s
  clear h
  induction x generalizing t s with
  | done a => rfl
  | look next ih => exact ih t s t s (hx t)
  | store s' next ih =>
    obtain ⟨_, hstep, hnext⟩ := hx
    exact ⟨m, hlaw t s s' hstep, ih t s' hnext⟩
  | pause wait drop next ih => exact ⟨hwaits, fun t s => hlaw t s _ (hx.2.1 s), fun t s => ih t s (hx.2.2 s)⟩

/-- The same with something more that is undone when it is dropped. -/
theorem Obeys.protectedAt {K : σ → σ → Prop} (h : Obeys K x) {undo : σ → σ}
    (hlaw : ∀ t s s', K s s' → R.step m ⟨t, s, s'⟩ m) (hundo : ∀ t s s', K s s' → R.step m ⟨t, s, undo s'⟩ m)
    (hwaits : R.waits m) (t : Instant) (s : σ) : AbidesAt R (fun m' _ => m' = m) (x.protect undo) m t s := by
  have hx := h s
  clear h
  induction x generalizing t s with
  | done a => rfl
  | look next ih => exact ih t s t s (hx t)
  | store s' next ih =>
    obtain ⟨_, hstep, hnext⟩ := hx
    exact ⟨m, hlaw t s s' hstep, ih t s' hnext⟩
  | pause wait drop next ih => exact ⟨hwaits, fun t s => hundo t s _ (hx.2.1 s), fun t s => ih t s (hx.2.2 s)⟩

end Parts

end Fiber

open ResilientClient.Fiber

/-! ## Chains -/

/-- Writes of numbered tasks, one after the other. Each is a step of the rule, from the mode that its task is in, and
all other tasks are in modes in which they may wait. -/
inductive Chain (R : TimedRule σ μ) (modes : Nat → μ) (s : σ) : List (Nat × Write σ) → (Nat → μ) → σ → Prop
  | nil : Chain R modes s [] modes s
  | snoc {ws : List (Nat × Write σ)} {now : Nat → μ} {s₁ s₂ : σ} {number : Nat} {t : Instant} {m : μ} :
      Chain R modes s ws now s₁ → (∀ other, other ≠ number → R.waits (now other)) →
      R.step (now number) ⟨t, s₁, s₂⟩ m →
      Chain R modes s (ws ++ [(number, ⟨t, s₁, s₂⟩)]) (Function.update now number m) s₂

section Chains

variable {R : TimedRule σ μ} {ends : μ → α → Prop} {modes now : Nat → μ} {s s₁ : σ} {ws : List (Nat × Write σ)}
  {number : Nat}

theorem chain_nil : Chain R modes s [] now s₁ ↔ now = modes ∧ s₁ = s := by
  constructor
  · intro h
    generalize hws : ([] : List (Nat × Write σ)) = ws at h
    cases h with
    | nil => exact ⟨rfl, rfl⟩
    | snoc => simp at hws
  · rintro ⟨rfl, rfl⟩
    exact .nil

/-- The last write of a chain. -/
theorem chain_concat {w : Write σ} {s' : σ} : Chain R modes s (ws ++ [(number, w)]) now s' ↔
    ∃ mid m, Chain R modes s ws mid w.before ∧ (∀ other, other ≠ number → R.waits (mid other)) ∧
      R.step (mid number) w m ∧ now = Function.update mid number m ∧ s' = w.after := by
  constructor
  · intro h
    generalize hws : ws ++ [(number, w)] = all at h
    cases h with
    | nil => simp at hws
    | snoc hchain hothers hstep =>
      obtain ⟨rfl, hlast⟩ := List.append_inj' hws rfl
      cases hlast
      exact ⟨_, _, hchain, hothers, hstep, rfl, rfl⟩
  · rintro ⟨mid, m, hchain, hothers, hstep, rfl, rfl⟩
    exact hchain.snoc hothers hstep

/-- Any write of a chain is a step, and what comes after it is a chain from there on. -/
theorem Chain.split {us vs : List (Nat × Write σ)} {w : Write σ} {s' : σ}
    (h : Chain R modes s (us ++ (number, w) :: vs) now s') : ∃ mid m, Chain R modes s us mid w.before ∧
      (∀ other, other ≠ number → R.waits (mid other)) ∧ R.step (mid number) w m ∧
      Chain R (Function.update mid number m) w.after vs now s' := by
  -- the writes after it are taken away one by one from the end
  induction vs using List.reverseRecOn generalizing now s' with
  | nil =>
    obtain ⟨mid, m, hchain, hothers, hstep, rfl, rfl⟩ := chain_concat.1 h
    exact ⟨mid, m, hchain, hothers, hstep, .nil⟩
  | append_singleton vs last ih =>
    obtain ⟨other, v⟩ := last
    rw [← List.cons_append, ← List.append_assoc] at h
    obtain ⟨last, m', hfront, hothers', hstep', rfl, rfl⟩ := chain_concat.1 h
    obtain ⟨mid, m, hchain, hothers, hstep, hrest⟩ := ih hfront
    exact ⟨mid, m, hchain, hothers, hstep, hrest.snoc hothers' hstep'⟩

/-- As long as a task must not wait, it makes the next write. -/
theorem Chain.busy (h : Chain R modes s ws now s₁) (hbusy : ¬ R.waits (modes number)) (hnow : R.waits (now number)) :
    ∃ w m ws', ws = (number, w) :: ws' ∧ w.before = s ∧ R.step (modes number) w m ∧
      Chain R (Function.update modes number m) w.after ws' now s₁ := by
  cases ws with
  | nil =>
    obtain ⟨rfl, -⟩ := chain_nil.1 h
    exact absurd hnow hbusy
  | cons entry ws' =>
    obtain ⟨other, w⟩ := entry
    have hall : Chain R modes s ([] ++ (other, w) :: ws') now s₁ := h
    obtain ⟨mid, m, hnone, hothers, hstep, hrest⟩ := hall.split
    obtain ⟨rfl, hbefore⟩ := chain_nil.1 hnone
    -- a write of another one would say that this one may wait
    obtain rfl : number = other := by
      by_contra hne
      exact hbusy (hothers number hne)
    exact ⟨w, m, ws', rfl, hbefore, hstep, hrest⟩

/-- Up to its next wait a task makes steps of the rule, and then it is in a mode in which it may wait. -/
theorem Chain.burst (hends : ∀ m a, ends m a → R.waits m) {x : Fiber σ α} {t : Instant}
    (h : Chain R modes s ws now s₁) (hothers : ∀ other, other ≠ number → R.waits (now other))
    (hx : AbidesAt R ends x (now number) t s₁) :
    ∃ m, Chain R modes s (ws ++ (x.burst t s₁).writes.map (number, ·)) (Function.update now number m)
        (x.burst t s₁).state ∧
      R.waits m ∧ ∀ t' s', AbidesAt R ends (x.burst t s₁).left.rest m t' s' := by
  induction x generalizing ws now s₁ with
  | done a =>
    refine ⟨now number, ?_, hends _ a hx, fun _ _ => hx⟩
    rw [Function.update_eq_self]
    simpa [Fiber.burst] using h
  | look next ih => exact ih t s₁ h hothers hx
  | store s₂ next ih =>
    obtain ⟨m, hstep, hnext⟩ := hx
    -- nobody else has written, so all the others may still wait
    have hothers' : ∀ other, other ≠ number → R.waits (Function.update now number m other) := fun other hne => by
      rw [Function.update_of_ne hne]
      exact hothers other hne
    have hnext' : AbidesAt R ends next (Function.update now number m number) t s₂ := by
      rwa [Function.update_self]
    obtain ⟨m', hchain, hwaits, hleft⟩ := ih (h.snoc hothers hstep) hothers' hnext'
    refine ⟨m', ?_, hwaits, hleft⟩
    rw [Function.update_idem] at hchain
    simpa [Fiber.burst] using hchain
  | pause wait drop next =>
    refine ⟨now number, ?_, hx.1, hx.2.2⟩
    rw [Function.update_eq_self]
    simpa [Fiber.burst] using h

/-- The writes of a crowd so far are a chain, and what is left of its tasks goes on in the modes at its end. -/
structure Crowd.Chained (R : TimedRule σ μ) (ends : μ → α → Prop) (modes : Nat → μ) (s : σ) (c : Crowd σ α)
    (now : Nat → μ) : Prop where
  chain : Chain R modes s c.writes now c.state
  waits : ∀ number, R.waits (now number)
  abide : ∀ number task, c.tasks[number]? = some task → ∀ t s, AbidesAt R ends task.rest (now number) t s

theorem Crowd.Chained.advance {c : Crowd σ α} (hends : ∀ m a, ends m a → R.waits m)
    (h : c.Chained R ends modes s now) {task : Task σ α} (htask : c.tasks[number]? = some task) :
    ∃ m, (c.advance number task).Chained R ends modes s (Function.update now number m) := by
  obtain ⟨m, hchain, hm, hleft⟩ :=
    h.chain.burst hends (fun other _ => h.waits other) (h.abide number task htask c.time c.state)
  have hwaits : ∀ other, R.waits (Function.update now number m other) :=
    (Function.forall_update_iff now fun _ m => R.waits m).2 ⟨hm, fun other _ => h.waits other⟩
  refine ⟨m, hchain, hwaits, fun other later hlater => ?_⟩
  by_cases hn : other = number
  · subst hn
    have hlt : other < c.tasks.length := (List.getElem?_eq_some_iff.1 htask).1
    simp only [Crowd.advance, List.getElem?_set_self hlt, Option.some.injEq] at hlater
    rw [← hlater, Function.update_self]
    exact hleft
  · simp only [Crowd.advance, List.getElem?_set_ne (Ne.symm hn)] at hlater
    rw [Function.update_of_ne hn]
    exact h.abide other later hlater

/-- The writes of tasks that abide by a rule are a chain, and at every turn all tasks are in modes in which they may
wait. -/
theorem Crowd.chain_run (R : TimedRule σ μ) (ends : μ → α → Prop) (modes : Nat → μ) {tasks : List (Task σ α)}
    (hends : ∀ m a, ends m a → R.waits m) (hwaits : ∀ number, R.waits (modes number))
    (h : ∀ number task, tasks[number]? = some task → ∀ t s, AbidesAt R ends task.rest (modes number) t s)
    (t : Instant) (s : σ) (turns : List Turn) :
    ∃ now, ((Crowd.start t s tasks).run turns).Chained R ends modes s now := by
  refine Crowd.run_induction (P := fun c => ∃ now, c.Chained R ends modes s now) ?_ ?_ turns _ ⟨modes, .nil, hwaits, h⟩
  · rintro c wait ⟨now, hc⟩
    exact ⟨now, hc.chain, hc.waits, hc.abide⟩
  · rintro c number task ⟨now, hc⟩ htask -
    obtain ⟨m, hnext⟩ := hc.advance hends htask
    exact ⟨_, hnext⟩

end Chains

end ResilientClient
