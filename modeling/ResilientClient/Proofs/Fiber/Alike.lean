/-
Two runs side by side. A view of the state shows the part of it that matters. A fiber is quiet if nothing
that it does can be seen, and two fibers are alike if they do the same as far as can be seen, at the same
times, until what is left of both is quiet. Crowds whose tasks are alike show the same changes at the same
times, in every order of turns (`Crowd.changes_run`).
-/
import ResilientClient.Proofs.Fiber.Crowd

namespace ResilientClient

namespace Fiber

variable {σ τ ρ υ α β : Type}

/-! ## Quiet fibers -/

/-- Nothing that the fiber does can be seen, from where the view is `v`. -/
def Quiet (view : σ → τ) : Fiber σ α → τ → Prop
  | done _, _ => True
  | look next, v => ∀ t s, view s = v → (next t s).Quiet view v
  | store s next, v => view s = v ∧ next.Quiet view v
  | pause _ _ next, _ => ∀ v, next.Quiet view v

/-- Nothing that the fiber does can be seen, from anywhere. -/
def Silent (view : σ → τ) (x : Fiber σ α) : Prop := ∀ v, x.Quiet view v

section Quiet

variable {view : σ → τ}

theorem quiet_andThen {x : Fiber σ α} {f : α → Fiber σ β} {v : τ} (hx : x.Quiet view v)
    (hf : ∀ a, (f a).Silent view) : (x.andThen f).Quiet view v := by
  induction x generalizing v with
  | done a => exact hf a v
  | look next ih => exact fun t s hs => ih t s (hx t s hs)
  | store s next ih => exact ⟨hx.1, ih hx.2⟩
  | pause wait drop next ih => exact fun v => ih (hx v)

theorem silent_done (a : α) : (done a : Fiber σ α).Silent view := fun _ => trivial

theorem silent_andThen {x : Fiber σ α} {f : α → Fiber σ β} (hx : x.Silent view)
    (hf : ∀ a, (f a).Silent view) : (x.andThen f).Silent view :=
  fun v => quiet_andThen (hx v) hf

theorem silent_modify {f : σ → σ} (hf : ∀ s, view (f s) = view s) : (modify f).Silent view :=
  fun _ _ s hs => ⟨(hf s).trans hs, trivial⟩

/-- Who sees nothing sees nothing happen. -/
theorem silent_blind (x : Fiber σ α) : x.Silent fun _ => () := by
  induction x with
  | done a => exact silent_done a
  | look next ih => exact fun v t s _ => ih t s v
  | store s next ih => exact fun v => ⟨rfl, ih v⟩
  | pause wait drop next ih => exact fun _ => ih

/-- Work on a part of the state that is quiet on that part: the view of the whole tells what is to be seen
of the part, and shows nothing of a change of the part that cannot be seen there. -/
theorem silent_zoom (view₁ : ρ → υ) (shadow : τ → υ) {part : σ → ρ} {put : ρ → σ → σ}
    (hpart : ∀ s, view₁ (part s) = shadow (view s))
    (hput : ∀ p s, view₁ p = view₁ (part s) → view (put p s) = view s) {x : Fiber ρ α}
    (h : x.Silent view₁) : (x.zoom part put).Silent view := by
  suffices hquiet : ∀ v, x.Quiet view₁ (shadow v) → (x.zoom part put).Quiet view v from
    fun v => hquiet v (h (shadow v))
  clear h
  induction x with
  | done a => exact fun v _ => trivial
  | look next ih =>
    intro v hx t s hs
    exact ih t (part s) v (hx t (part s) ((hpart s).trans (congrArg shadow hs)))
  | store p next ih =>
    intro v hx t s hs
    obtain ⟨hp, hnext⟩ := hx
    have hsame : view₁ p = view₁ (part s) := hp.trans (((hpart s).trans (congrArg shadow hs)).symm)
    exact ⟨(hput p s hsame).trans hs, ih v hnext⟩
  | pause wait drop next ih => exact fun v hx v' => ih v' (hx (shadow v'))

end Quiet

/-! ## Fibers that go on alike -/

/-- Two fibers do the same as far as can be seen, from where the view is `v`, until what is left of them
is related. -/
inductive Match (view : σ → τ) (Rest : Fiber σ α → Fiber σ β → Prop) :
    Fiber σ α → Fiber σ β → τ → Prop
  | rest {x : Fiber σ α} {y : Fiber σ β} {v : τ} : Rest x y → Match view Rest x y v
  | look {next : Instant → σ → Fiber σ α} {next' : Instant → σ → Fiber σ β} {v : τ} :
      (∀ t s s', view s = v → view s' = v → Match view Rest (next t s) (next' t s') v) →
      Match view Rest (look next) (look next') v
  | store {s s' : σ} {next : Fiber σ α} {next' : Fiber σ β} {v : τ} :
      view s = view s' → Match view Rest next next' (view s) →
      Match view Rest (store s next) (store s' next') v
  | pause {wait : Nat} {drop drop' : σ → σ} {next : Fiber σ α} {next' : Fiber σ β} {v : τ} :
      (∀ s s', view s = view s' → view (drop s) = view (drop' s')) →
      (∀ v, Match view Rest next next' v) →
      Match view Rest (pause wait drop next) (pause wait drop' next') v

/-- Both have ended with the same result. -/
def SameEnd (x y : Fiber σ α) : Prop := ∃ a, x = done a ∧ y = done a

/-- Two fibers do the same as far as can be seen, up to the same result. -/
def Same (view : σ → τ) : Fiber σ α → Fiber σ α → τ → Prop := Match view SameEnd

/-- Two fibers do the same as far as can be seen, until what is left of both is quiet. -/
def Alike (view : σ → τ) : Fiber σ α → Fiber σ α → τ → Prop :=
  Match view fun x y => x.Silent view ∧ y.Silent view

section Match

variable {view : σ → τ} {v : τ}

theorem same_done (a : α) : Same view (done a : Fiber σ α) (done a) v := .rest ⟨a, rfl, rfl⟩

theorem Same.andThen {Rest : Fiber σ β → Fiber σ β → Prop} {x y : Fiber σ α} {f g : α → Fiber σ β}
    (h : Same view x y v) (hf : ∀ a v, Match view Rest (f a) (g a) v) :
    Match view Rest (x.andThen f) (y.andThen g) v := by
  unfold Same at h
  induction h with
  | rest h => obtain ⟨a, rfl, rfl⟩ := h; exact hf a _
  | look _ ih => exact .look ih
  | store hs _ ih => exact .store hs ih
  | pause hd _ ih => exact .pause hd ih

/-- What a change reads and makes of the state is only what can be seen. -/
theorem same_modifyGet {f : Instant → σ → α × σ}
    (hf : ∀ t s s', view s = view s' → (f t s).1 = (f t s').1 ∧ view (f t s).2 = view (f t s').2) :
    Same view (modifyGet f) (modifyGet f) v := by
  refine .look fun t s s' hs hs' => ?_
  obtain ⟨hanswer, hview⟩ := hf t s s' (hs.trans hs'.symm)
  rw [hanswer]
  exact .store hview (same_done _)

/-- Work on a part of the state that can be seen. -/
theorem same_zoom {part : σ → ρ} {put : ρ → σ → σ}
    (hpart : ∀ s s', view s = view s' → part s = part s')
    (hput : ∀ p s s', view s = view s' → view (put p s) = view (put p s')) (x : Fiber ρ α) :
    ∀ v, Same view (x.zoom part put) (x.zoom part put) v := by
  induction x with
  | done a => exact fun v => same_done a
  | look next ih =>
    refine fun v => .look fun t s s' hs hs' => ?_
    rw [hpart s s' (hs.trans hs'.symm)]
    exact ih t (part s') v
  | store p next ih =>
    exact fun v => .look fun _ s s' hs hs' => .store (hput p s s' (hs.trans hs'.symm)) (ih _)
  | pause wait drop next ih =>
    refine fun v => .pause (fun s s' hs => ?_) ih
    rw [hpart s s' hs]
    exact hput _ s s' hs

theorem Same.protect {x y : Fiber σ α} {undo : σ → σ}
    (hundo : ∀ s s', view s = view s' → view (undo s) = view (undo s')) (h : Same view x y v) :
    Same view (x.protect undo) (y.protect undo) v := by
  unfold Same at h ⊢
  induction h with
  | rest h => obtain ⟨a, rfl, rfl⟩ := h; exact same_done a
  | look _ ih => exact .look ih
  | store hs _ ih => exact .store hs ih
  | pause hd _ ih => exact .pause (fun s s' hs => hundo _ _ (hd s s' hs)) ih

theorem same_cutOff {wait : Nat} {drop drop' : σ → σ}
    (hd : ∀ s s', view s = view s' → view (drop s) = view (drop' s')) :
    Same view (cutOff wait drop : Fiber σ (Option α)) (cutOff wait drop') v := by
  have hend : ∀ v, Same view (Fiber.look fun _ s => .store (drop s) (.done (none : Option α)))
      (Fiber.look fun _ s => .store (drop' s) (.done none)) v :=
    fun v => .look fun _ s s' hs hs' => .store (hd s s' (hs.trans hs'.symm)) (same_done none)
  unfold cutOff pauseFor
  split
  · exact hend v
  · exact .pause hd hend

theorem Same.within {x y : Fiber σ α} {limit : Nat} (h : Same view x y v) :
    Same view (x.within limit) (y.within limit) v := by
  unfold Same at h ⊢
  induction h generalizing limit with
  | rest h => obtain ⟨a, rfl, rfl⟩ := h; exact same_done (some a)
  | look _ ih => exact .look fun t s s' hs hs' => ih t s s' hs hs'
  | store hs _ ih => exact .store hs ih
  | @pause wait drop drop' next next' v hd _ ih =>
    simp only [Fiber.within]
    split
    · exact .pause hd fun v => ih v
    · exact same_cutOff hd

end Match

/-! ## Bursts -/

/-- The time and what is to be seen of a write that can be seen. -/
def Write.change? [DecidableEq υ] (shown : σ → υ) (w : Write σ) : Option (Instant × υ) :=
  if shown w.after = shown w.before then none else some (w.time, shown w.after)

section Bursts

variable {view : σ → τ} [DecidableEq υ] (shown : τ → υ)

theorem burst_quiet {x : Fiber σ α} {s : σ} (h : x.Quiet view (view s)) (t : Instant) :
    view (x.burst t s).state = view s ∧
      (x.burst t s).writes.filterMap (Write.change? (shown ∘ view)) = [] ∧
      (x.burst t s).left.rest.Silent view := by
  induction x generalizing s with
  | done a => exact ⟨rfl, rfl, silent_done a⟩
  | look next ih => exact ih t s (h t s rfl)
  | store s₁ next ih =>
    obtain ⟨hs, hnext⟩ := h
    obtain ⟨hstate, hwrites, hleft⟩ := ih (hs ▸ hnext)
    refine ⟨hstate.trans hs, ?_, hleft⟩
    have hfirst : Write.change? (shown ∘ view) ⟨t, s, s₁⟩ = none := by
      simp [Write.change?, hs]
    simp only [burst]
    rw [List.filterMap_cons_none hfirst, hwrites]
  | pause wait drop next => exact ⟨rfl, rfl, h⟩

/-- What is left of two tasks that go on alike: both wait for the same time, or both are quiet. -/
def Paired (view : σ → τ) (one other : Task σ α) : Prop :=
  (one.due = other.due ∧ ∀ v, Alike view one.rest other.rest v) ∨
    one.rest.Silent view ∧ other.rest.Silent view

theorem burst_alike {x y : Fiber σ α} {v : τ} (h : Alike view x y v) (t : Instant) {s s' : σ}
    (hs : view s = v) (hs' : view s' = v) :
    view (x.burst t s).state = view (y.burst t s').state ∧
      (x.burst t s).writes.filterMap (Write.change? (shown ∘ view)) =
        (y.burst t s').writes.filterMap (Write.change? (shown ∘ view)) ∧
      Paired view (x.burst t s).left (y.burst t s').left := by
  unfold Alike at h
  induction h generalizing s s' with
  | rest h =>
    obtain ⟨hx, hy⟩ := h
    obtain ⟨hstate, hwrites, hleft⟩ := burst_quiet shown (hx (view s)) t
    obtain ⟨hstate', hwrites', hleft'⟩ := burst_quiet shown (hy (view s')) t
    exact ⟨by rw [hstate, hstate', hs, hs'], hwrites.trans hwrites'.symm, .inr ⟨hleft, hleft'⟩⟩
  | look _ ih => exact ih t s s' hs hs' hs hs'
  | @store s₁ s₁' next next' v hview _ ih =>
    obtain ⟨hstate, hwrites, hleft⟩ := ih rfl hview.symm
    have hfirst : Write.change? (shown ∘ view) ⟨t, s, s₁⟩ =
        Write.change? (shown ∘ view) ⟨t, s', s₁'⟩ := by
      simp [Write.change?, hs, hs', hview]
    refine ⟨hstate, ?_, hleft⟩
    simp only [burst, List.filterMap_cons, hfirst, hwrites]
  | pause _ hnext _ => exact ⟨hs.trans hs'.symm, rfl, .inl ⟨rfl, hnext⟩⟩

end Bursts

end Fiber

open ResilientClient.Fiber

namespace Crowd

variable {σ τ υ α : Type} [DecidableEq υ] {view : σ → τ} (shown : τ → υ)

/-! ## Crowds side by side -/

/-- The changes that can be seen: who made them, when, and what was to be seen afterwards. -/
def changes (shown : σ → υ) (c : Crowd σ α) : List (Nat × Instant × υ) :=
  c.writes.filterMap fun entry => (entry.2.change? shown).map (entry.1, ·)

theorem changes_advance (shown : σ → υ) (c : Crowd σ α) (number : Nat) (task : Task σ α) :
    (c.advance number task).changes shown = c.changes shown ++
      ((task.rest.burst c.time c.state).writes.filterMap (Write.change? shown)).map (number, ·) := by
  simp only [changes, advance, List.filterMap_append, List.filterMap_map, List.map_filterMap]
  rfl

/-- Two crowds that cannot be told apart. -/
structure Together (view : σ → τ) (shown : τ → υ) (c c' : Crowd σ α) : Prop where
  time : c.time = c'.time
  state : view c.state = view c'.state
  changes : c.changes (shown ∘ view) = c'.changes (shown ∘ view)
  length : c.tasks.length = c'.tasks.length
  paired : ∀ (number : Nat) (one other : Task σ α), c.tasks[number]? = some one →
    c'.tasks[number]? = some other → Paired view one other

section Together

variable {c c' : Crowd σ α} {number : Nat} {one other one' other' : Task σ α}

/-- A task that is quiet may go on or not: it stays quiet, and nothing is to be seen. -/
theorem resume_silent (hone : c.tasks[number]? = some one) (h : one.rest.Silent view) :
    ∃ left : Task σ α, left.rest.Silent view ∧ (c.resume number).tasks = c.tasks.set number left ∧
      (c.resume number).time = c.time ∧ view (c.resume number).state = view c.state ∧
      (c.resume number).changes (shown ∘ view) = c.changes (shown ∘ view) := by
  unfold resume
  rw [hone]
  dsimp only
  split
  · obtain ⟨hstate, hwrites, hleft⟩ := burst_quiet shown (h (view c.state)) c.time
    refine ⟨_, hleft, rfl, rfl, hstate, ?_⟩
    rw [changes_advance, hwrites]
    exact List.append_nil _
  · obtain ⟨hlt, rfl⟩ := List.getElem?_eq_some_iff.1 hone
    exact ⟨_, h, (List.set_getElem_self hlt).symm, rfl, rfl, rfl⟩

theorem paired_set (hpaired : ∀ (k : Nat) (a b : Task σ α), c.tasks[k]? = some a →
      c'.tasks[k]? = some b → Paired view a b)
    (hone : c.tasks[number]? = some one) (hother : c'.tasks[number]? = some other)
    (h : Paired view one' other') : ∀ (k : Nat) (a b : Task σ α),
      (c.tasks.set number one')[k]? = some a → (c'.tasks.set number other')[k]? = some b →
      Paired view a b := by
  intro k a b ha hb
  by_cases hk : number = k
  · subst hk
    rw [List.getElem?_set_self (List.getElem?_eq_some_iff.1 hone).1] at ha
    rw [List.getElem?_set_self (List.getElem?_eq_some_iff.1 hother).1] at hb
    cases ha; cases hb
    exact h
  · rw [List.getElem?_set_ne hk] at ha hb
    exact hpaired k a b ha hb

theorem Together.pass (h : Together view shown c c') (wait : Nat) :
    Together view shown (c.pass wait) (c'.pass wait) :=
  ⟨congrArg (· + wait) h.time, h.state, h.changes, h.length, h.paired⟩

/-- Whoever goes on, the crowds stay together: a task and its partner are due at the same time and do the
same, or both are quiet and it does not matter which of them goes on. -/
theorem Together.resume (h : Together view shown c c') (number : Nat) :
    Together view shown (c.resume number) (c'.resume number) := by
  cases hone : c.tasks[number]? with
  | none =>
    have hother : c'.tasks[number]? = none := by
      rw [List.getElem?_eq_none_iff] at hone ⊢
      exact h.length ▸ hone
    unfold Crowd.resume
    rwa [hone, hother]
  | some one =>
    obtain ⟨other, hother⟩ : ∃ other, c'.tasks[number]? = some other := by
      have hlt := h.length ▸ (List.getElem?_eq_some_iff.1 hone).1
      exact ⟨_, List.getElem?_eq_getElem hlt⟩
    rcases h.paired number one other hone hother with ⟨hdue, halike⟩ | ⟨hquiet, hquiet'⟩
    · unfold Crowd.resume
      rw [hone, hother]
      dsimp only
      rw [hdue, h.time]
      split
      · obtain ⟨hstate, hwrites, hleft⟩ :=
          burst_alike shown (halike (view c.state)) c.time rfl h.state.symm
        rw [h.time] at hstate hwrites hleft
        refine ⟨h.time, ?_, ?_, ?_, ?_⟩
        · simpa only [advance, h.time] using hstate
        · rw [changes_advance, changes_advance, h.changes, h.time, hwrites]
        · simp [advance, h.length]
        · simpa only [advance, h.time] using paired_set h.paired hone hother hleft
      · exact h
    · obtain ⟨left, hleft, htasks, htime, hstate, hchanges⟩ := resume_silent shown hone hquiet
      obtain ⟨left', hleft', htasks', htime', hstate', hchanges'⟩ := resume_silent shown hother hquiet'
      refine ⟨?_, ?_, ?_, ?_, ?_⟩
      · rw [htime, htime', h.time]
      · rw [hstate, hstate', h.state]
      · rw [hchanges, hchanges', h.changes]
      · rw [htasks, htasks', List.length_set, List.length_set, h.length]
      · rw [htasks, htasks']
        exact paired_set h.paired hone hother (.inr ⟨hleft, hleft'⟩)

theorem Together.run (turns : List Turn) (h : Together view shown c c') :
    Together view shown (c.run turns) (c'.run turns) := by
  induction turns generalizing c c' with
  | nil => exact h
  | cons turn turns ih => exact ih ((h.pass shown turn.wait).resume shown turn.task)

end Together

/-- Tasks that begin at the same times and go on alike show the same changes. -/
theorem changes_run {ι : Type} (items : List ι) (due : ι → Instant) {f g : ι → Fiber σ α}
    (h : ∀ i v, Alike view (f i) (g i) v) (t : Instant) (s : σ) (turns : List Turn) :
    let c := (start t s (items.map fun i => ⟨due i, f i⟩)).run turns
    let c' := (start t s (items.map fun i => ⟨due i, g i⟩)).run turns
    c.changes (shown ∘ view) = c'.changes (shown ∘ view) ∧ view c.state = view c'.state := by
  have hstart : Together view shown (start t s (items.map fun i => ⟨due i, f i⟩))
      (start t s (items.map fun i => ⟨due i, g i⟩)) := by
    refine ⟨rfl, rfl, rfl, by simp [start], fun number one other hone hother => ?_⟩
    simp only [start, List.getElem?_map, Option.map_eq_some_iff] at hone hother
    obtain ⟨i, hi, rfl⟩ := hone
    obtain ⟨j, hj, rfl⟩ := hother
    obtain rfl : i = j := Option.some.inj (hi.symm.trans hj)
    exact .inl ⟨rfl, h i⟩
  have hrun := hstart.run shown turns
  exact ⟨hrun.changes, hrun.state⟩

end Crowd

end ResilientClient
