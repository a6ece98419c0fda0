/-
Rules for fibers. A rule says for every mode of a fiber how it may change the state, in which mode it is then,
and whether it may wait; what is undone when it is dropped during a wait is such a change too. To abide by a rule
is defined along the fiber itself, so it is shown part by part (`abides_andThen`, `abides_zoom`,
`abides_within`), and it holds whatever others do in the meantime. On a path the writes lead from mode to mode
(`Abides.split`), and tasks that all obey one law change the state by steps of that law only
(`Crowd.reaches_run`).
-/
import ResilientClient.Proofs.Fiber.Crowd

namespace ResilientClient

variable {σ τ μ ν α β : Type}

namespace Fiber

/-- What a fiber may do in each mode. -/
structure Rule (σ μ : Type) where
  /-- A change of the state, with the modes before and after it. -/
  step : μ → σ → σ → μ → Prop
  /-- The modes in which a fiber may wait. -/
  waits : μ → Prop

/-- From a mode and a state on a fiber does what the rule allows, and it comes to an end as it should. -/
def Abides (R : Rule σ μ) (ends : μ → α → Prop) : Fiber σ α → μ → σ → Prop
  | .done a, m, _ => ends m a
  | .look next, m, s => ∀ t, Abides R ends (next t s) m s
  | .store s' next, m, s => ∃ m', R.step m s s' m' ∧ Abides R ends next m' s'
  | .pause _ drop next, m, _ => R.waits m ∧ (∀ s, R.step m s (drop s) m) ∧ ∀ s, Abides R ends next m s

/-! ## Parts of a fiber -/

section Parts

variable {R : Rule σ μ} {m : μ} {s : σ}

theorem abides_andThen {mid : μ → α → Prop} {ends : μ → β → Prop} {x : Fiber σ α} {f : α → Fiber σ β}
    (hx : Abides R mid x m s) (hf : ∀ m a s, mid m a → Abides R ends (f a) m s) :
    Abides R ends (x.andThen f) m s := by
  induction x generalizing m s with
  | done a => exact hf m a s hx
  | look next ih => exact fun t => ih t s (hx t)
  | store s' next ih =>
    obtain ⟨m', hstep, hnext⟩ := hx
    exact ⟨m', hstep, ih hnext⟩
  | pause wait drop next ih => exact ⟨hx.1, hx.2.1, fun s => ih (hx.2.2 s)⟩

/-- A rule that allows more, with other modes for the same. -/
theorem Abides.weaken {R' : Rule σ ν} {ends : μ → α → Prop} {ends' : ν → α → Prop} {x : Fiber σ α}
    (h : Abides R ends x m s) (f : μ → ν) (hstep : ∀ m s s' m', R.step m s s' m' → R'.step (f m) s s' (f m'))
    (hwaits : ∀ m, R.waits m → R'.waits (f m)) (hends : ∀ m a, ends m a → ends' (f m) a) :
    Abides R' ends' x (f m) s := by
  induction x generalizing m s with
  | done a => exact hends m a h
  | look next ih => exact fun t => ih t s (h t)
  | store s' next ih =>
    obtain ⟨m', hm, hnext⟩ := h
    exact ⟨f m', hstep _ _ _ _ hm, ih hnext⟩
  | pause wait drop next ih =>
    exact ⟨hwaits m h.1, fun s => hstep _ _ _ _ (h.2.1 s), fun s => ih (h.2.2 s)⟩

/-- Another end. -/
theorem Abides.ending {ends ends' : μ → α → Prop} {x : Fiber σ α} (h : Abides R ends x m s)
    (hends : ∀ m a, ends m a → ends' m a) : Abides R ends' x m s :=
  h.weaken id (fun _ _ _ _ h => h) (fun _ h => h) hends

theorem abides_modifyGet {ends : μ → α → Prop} {f : Instant → σ → α × σ}
    (h : ∀ t, ∃ m', R.step m s (f t s).2 m' ∧ ends m' (f t s).1) : Abides R ends (modifyGet f) m s := h

theorem abides_modify {ends : μ → Unit → Prop} {f : σ → σ} (h : ∃ m', R.step m s (f s) m' ∧ ends m' ()) :
    Abides R ends (modify f) m s := fun _ => h

theorem abides_sleep {ends : μ → Unit → Prop} (d : Duration) (hwaits : R.waits m) (hstays : ∀ s, R.step m s s m)
    (hends : ends m ()) : Abides R ends (sleep d) m s := by
  unfold sleep pauseFor
  split
  · exact hends
  · exact ⟨hwaits, hstays, fun _ => hends⟩

/-- What is undone besides is part of the same change. -/
theorem abides_protect {ends : μ → α → Prop} {undo : σ → σ} {x : Fiber σ α} (h : Abides R ends x m s)
    (hundo : ∀ m s s', R.waits m → R.step m s s' m → R.step m s (undo s') m) :
    Abides R ends (x.protect undo) m s := by
  induction x generalizing m s with
  | done a => exact h
  | look next ih => exact fun t => ih t s (h t)
  | store s' next ih =>
    obtain ⟨m', hstep, hnext⟩ := h
    exact ⟨m', hstep, ih hnext⟩
  | pause wait drop next ih => exact ⟨h.1, fun s => hundo m s _ h.1 (h.2.1 s), fun s => ih (h.2.2 s)⟩

theorem zoom_andThen {part : σ → τ} {put : τ → σ → σ} (x : Fiber τ α) (f : α → Fiber τ β) :
    (x.andThen f).zoom part put = (x.zoom part put).andThen fun a => (f a).zoom part put := by
  induction x with
  | done a => rfl
  | look next ih => simp [andThen, zoom, ih]
  | store p next ih => simp [andThen, zoom, ih]
  | pause wait drop next ih => simp [andThen, zoom, ih]

/-- A rule on a part of the state. -/
theorem abides_zoom {part : σ → τ} {put : τ → σ → σ} (hput : ∀ p s, part (put p s) = p) {R' : Rule τ μ}
    {ends : μ → α → Prop} {x : Fiber τ α} (h : Abides R' ends x m (part s))
    (hstep : ∀ m s p m', R'.step m (part s) p m' → R.step m s (put p s) m')
    (hwaits : ∀ m, R'.waits m → R.waits m) : Abides R ends (x.zoom part put) m s := by
  induction x generalizing m s with
  | done a => exact h
  | look next ih => exact fun t => ih t (part s) (h t)
  | store p next ih =>
    obtain ⟨m', hm, hnext⟩ := h
    refine fun _ => ⟨m', hstep m s p m' hm, ih ?_⟩
    rwa [hput]
  | pause wait drop next ih =>
    exact ⟨hwaits m h.1, fun s => hstep m s _ m (h.2.1 (part s)), fun s => ih (h.2.2 (part s))⟩

/-- Within a limit a fiber comes to its end, or it is cut off in a mode in which it waits. -/
def Rule.orCut (R : Rule σ μ) (ends : μ → α → Prop) : μ → Option α → Prop
  | m, some a => ends m a
  | m, none => R.waits m

theorem abides_within {ends : μ → α → Prop} {x : Fiber σ α} {limit : Nat} (h : Abides R ends x m s) :
    Abides R (R.orCut ends) (x.within limit) m s := by
  induction x generalizing limit m s with
  | done a => exact h
  | look next ih => exact fun t => ih t s (h t)
  | store s' next ih =>
    obtain ⟨m', hstep, hnext⟩ := h
    exact ⟨m', hstep, ih hnext⟩
  | pause wait drop next ih =>
    obtain ⟨hwaits, hdrop, hnext⟩ := h
    unfold within
    split
    · exact ⟨hwaits, hdrop, fun s => ih (hnext s)⟩
    · -- the drop is the last change
      have hcut : ∀ s, Abides R (R.orCut ends) (look fun _ s => store (drop s) (done none)) m s :=
        fun s _ => ⟨m, hdrop s, hwaits⟩
      unfold cutOff pauseFor
      split
      · exact hcut s
      · exact ⟨hwaits, hdrop, hcut⟩

end Parts

/-! ## Laws -/

/-- A rule without modes. -/
def law (K : σ → σ → Prop) : Rule σ Unit := ⟨fun _ s s' _ => K s s', fun _ => True⟩

/-- All that a fiber does to the state, from any state on, is allowed by a law. -/
def Obeys (K : σ → σ → Prop) (x : Fiber σ α) : Prop := ∀ s, Abides (law K) (fun _ _ => True) x () s

section Laws

variable {K K' : σ → σ → Prop} {x : Fiber σ α}

theorem obeys_done (a : α) : Obeys K (done a) := fun _ => trivial

theorem obeys_andThen {f : α → Fiber σ β} (hx : Obeys K x) (hf : ∀ a, Obeys K (f a)) :
    Obeys K (x.andThen f) := fun s => abides_andThen (hx s) fun _ a s _ => hf a s

theorem obeys_modifyGet {f : Instant → σ → α × σ} (h : ∀ t s, K s (f t s).2) : Obeys K (modifyGet f) :=
  fun s => abides_modifyGet fun t => ⟨(), h t s, trivial⟩

theorem obeys_modify {f : σ → σ} (h : ∀ s, K s (f s)) : Obeys K (modify f) :=
  fun s => abides_modify ⟨(), h s, trivial⟩

theorem obeys_now : Obeys K (now : Fiber σ Instant) := fun _ _ => trivial

theorem obeys_sleep (hrefl : ∀ s, K s s) (d : Duration) : Obeys K (sleep d : Fiber σ Unit) :=
  fun _ => abides_sleep d trivial hrefl trivial

theorem obeys_zoom {part : σ → τ} {put : τ → σ → σ} (hput : ∀ p s, part (put p s) = p) {L : τ → τ → Prop}
    {y : Fiber τ α} (h : Obeys L y) (hlaw : ∀ s p, L (part s) p → K s (put p s)) :
    Obeys K (y.zoom part put) :=
  fun s => abides_zoom hput (h (part s)) (fun _ s p _ => hlaw s p) fun _ h => h

theorem obeys_within (h : Obeys K x) (limit : Nat) : Obeys K (x.within limit) :=
  fun s => (abides_within (h s)).ending fun _ _ _ => trivial

theorem obeys_protect (h : Obeys K x) {undo : σ → σ} (hundo : ∀ s s', K s s' → K s (undo s')) :
    Obeys K (x.protect undo) := fun s => abides_protect (h s) fun _ s s' _ => hundo s s'

/-- There is a law that allows everything. -/
theorem obeys_true (x : Fiber σ α) : Obeys (fun _ _ => True) x := by
  intro s
  induction x generalizing s with
  | done a => trivial
  | look next ih => exact fun t => ih t s s
  | store s' next ih => exact ⟨(), trivial, ih s'⟩
  | pause wait drop next ih => exact ⟨trivial, fun _ => trivial, ih⟩

theorem Obeys.weaken (h : Obeys K x) (hlaw : ∀ s s', K s s' → K' s s') : Obeys K' x :=
  fun s => (h s).weaken id (fun _ s s' _ => hlaw s s') (fun _ h => h) fun _ _ _ => trivial

/-- What obeys a law stays in a mode in which all that the law allows is allowed. -/
theorem Obeys.abides (h : Obeys K x) {R : Rule σ μ} {m : μ} (hlaw : ∀ s s', K s s' → R.step m s s' m)
    (hwaits : R.waits m) (s : σ) : Abides R (fun m' _ => m' = m) x m s :=
  (h s).weaken (fun _ => m) (fun _ s s' _ => hlaw s s') (fun _ _ => hwaits) fun _ _ _ => rfl

/-- Without its modes a rule is a law. -/
theorem obeys_of_abides {R : Rule σ μ} {ends : μ → α → Prop} {m : μ} (h : ∀ s, Abides R ends x m s)
    (hlaw : ∀ m s s' m', R.step m s s' m' → K s s') : Obeys K x :=
  fun s => (h s).weaken (fun _ => ()) hlaw (fun _ _ => trivial) fun _ _ _ => trivial

end Laws

/-! ## Programs -/

/-- What is made of parts: sequences, each of which may depend on the results so far, with waits and time limits. -/
inductive Program (part : {α : Type} → Fiber σ α → Prop) : {α : Type} → Fiber σ α → Prop
  | part {α : Type} {x : Fiber σ α} : part x → Program part x
  | sleep (d : Duration) : Program part (sleep d)
  | done {α : Type} (a : α) : Program part (done a)
  | andThen {α β : Type} {x : Fiber σ α} {f : α → Fiber σ β} :
      Program part x → (∀ a, Program part (f a)) → Program part (x.andThen f)
  | within {α : Type} {x : Fiber σ α} (limit : Nat) : Program part x → Program part (x.within limit)

/-! ## Paths -/

section Paths

variable {R : Rule σ μ} {ends : μ → α → Prop} {x : Fiber σ α} {m : μ} {t t' : Instant} {s s' : σ}
  {ws before after : List (Write σ)} {w : Write σ} {a : α}

/-- Each write of a path is a step of the rule, and what is left of the fiber goes on in the mode after it. -/
theorem Abides.split (h : Abides R ends x m s) (hends : Ends x t s (before ++ w :: after) a t' s') :
    ∃ m₁ m₂ y, R.step m₁ w.before w.after m₂ ∧ Abides R ends y m₂ w.after ∧
      Ends y w.time w.after after a t' s' := by
  induction x generalizing before m t s with
  | done b => simp at hends
  | look next ih => exact ih t s (h t) (ends_look.1 hends)
  | store s₁ next ih =>
    obtain ⟨m', hstep, hnext⟩ := h
    obtain ⟨vs, hws, hgoes⟩ := ends_store.1 hends
    cases before with
    | nil =>
      obtain ⟨rfl, rfl⟩ := List.cons.inj hws
      exact ⟨m, m', next, hstep, hnext, hgoes⟩
    | cons v before =>
      obtain ⟨-, rfl⟩ := List.cons.inj hws
      exact ih hnext hgoes
  | pause wait drop next ih =>
    obtain ⟨s₁, hgoes⟩ := ends_pause.1 hends
    exact ih (h.2.2 s₁) hgoes

/-- All writes on a path are steps of the law. -/
theorem Obeys.writes {K : σ → σ → Prop} (h : Obeys K x) : Writes (fun w => K w.before w.after) x := by
  intro t s ws a t' s' hends w hw
  obtain ⟨before, after, rfl⟩ := List.append_of_mem hw
  obtain ⟨_, _, _, hstep, -⟩ := (h s).split hends
  exact hstep

/-- In a mode that is not left and in which nothing is waited for, all the rest is done at once. -/
theorem Abides.at_once (h : Abides R ends x m s) (hends : Ends x t s ws a t' s') (hwaits : ¬ R.waits m)
    (hstays : ∀ s s' m', R.step m s s' m' → m' = m) :
    t' = t ∧ (∀ w ∈ ws, w.time = t ∧ R.step m w.before w.after m) ∧ ends m a := by
  induction x generalizing s ws with
  | done b =>
    obtain ⟨rfl, rfl, rfl, -⟩ := ends_done.1 hends
    exact ⟨rfl, fun w hw => absurd hw List.not_mem_nil, h⟩
  | look next ih => exact ih t s (h t) (ends_look.1 hends)
  | store s₁ next ih =>
    obtain ⟨m', hstep, hnext⟩ := h
    obtain rfl := hstays _ _ _ hstep
    obtain ⟨vs, rfl, hgoes⟩ := ends_store.1 hends
    obtain ⟨ht, hall, hend⟩ := ih hnext hgoes
    refine ⟨ht, fun w hw => ?_, hend⟩
    rcases List.mem_cons.1 hw with rfl | hw
    · exact ⟨rfl, hstep⟩
    · exact hall w hw
  | pause wait drop next => exact absurd h.1 hwaits

end Paths

/-! ## Crowds -/

section Crowds

variable {K : σ → σ → Prop}

/-- Up to its next wait a fiber makes steps of its law, and what is left of it obeys the law as well. -/
theorem obeys_burst {x : Fiber σ α} {s : σ} (h : Abides (law K) (fun _ _ => True) x () s) (t : Instant) :
    Relation.ReflTransGen K s (x.burst t s).state ∧ Obeys K (x.burst t s).left.rest := by
  induction x generalizing s with
  | done a => exact ⟨.refl, obeys_done a⟩
  | look next ih => exact ih t s (h t)
  | store s₁ next ih =>
    obtain ⟨_, hstep, hnext⟩ := h
    obtain ⟨hreaches, hleft⟩ := ih hnext
    exact ⟨.head hstep hreaches, hleft⟩
  | pause wait drop next => exact ⟨.refl, h.2.2⟩

end Crowds

end Fiber

open ResilientClient.Fiber

/-- If all tasks obey a law, then in every order of turns the state changes by steps of that law only. -/
theorem Crowd.reaches_run {K : σ → σ → Prop} {tasks : List (Task σ α)} (h : ∀ task ∈ tasks, Obeys K task.rest)
    (t : Instant) (s : σ) (turns : List Turn) :
    Relation.ReflTransGen K s ((Crowd.start t s tasks).run turns).state := by
  suffices hall : Relation.ReflTransGen K s ((Crowd.start t s tasks).run turns).state ∧
      ∀ task ∈ ((Crowd.start t s tasks).run turns).tasks, Obeys K task.rest from hall.1
  refine Crowd.run_induction (P := fun c => Relation.ReflTransGen K s c.state ∧ ∀ task ∈ c.tasks, Obeys K task.rest)
    (fun _ _ h => h) (fun c number task ⟨hreaches, hobey⟩ htask _ => ?_) turns _ ⟨.refl, h⟩
  obtain ⟨hburst, hleft⟩ := obeys_burst (hobey task (List.mem_of_getElem? htask) c.state) c.time
  refine ⟨hreaches.trans hburst, fun later hlater => ?_⟩
  rcases List.mem_or_eq_of_mem_set hlater with hmem | rfl
  · exact hobey later hmem
  · exact hleft

end ResilientClient
