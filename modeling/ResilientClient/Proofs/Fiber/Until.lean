/-
Two fibers that are one up to some write. They do the same, step by step, until one of them makes a write of a
kind at which they part; what they do after that is left open (`AgreeUntil`). Crowds of such tasks, in one order of
turns, come to the same time and state with the same writes and results, unless there is a write of that kind, and
then both have made it (`Crowd.agree_run`).
-/
import ResilientClient.Proofs.Fiber.Crowd

namespace ResilientClient

variable {σ α β : Type}

namespace Fiber

/-- From a state on two fibers do the same until a write at which they part; if they both end, it is with one
result, which is as it should be. -/
inductive AgreeUntil (parts : σ → σ → Prop) (ends : α → Prop) : Fiber σ α → Fiber σ α → σ → Prop
  | done {a : α} {s : σ} : ends a → AgreeUntil parts ends (done a) (done a) s
  | look {next next' : Instant → σ → Fiber σ α} {s : σ} :
      (∀ t, AgreeUntil parts ends (next t s) (next' t s) s) → AgreeUntil parts ends (look next) (look next') s
  | store {s s₁ : σ} {next next' : Fiber σ α} :
      (¬ parts s s₁ → AgreeUntil parts ends next next' s₁) → AgreeUntil parts ends (store s₁ next) (store s₁ next') s
  | pause {wait : Nat} {drop : σ → σ} {next next' : Fiber σ α} {s : σ} :
      (∀ s, AgreeUntil parts ends next next' s) →
      AgreeUntil parts ends (pause wait drop next) (pause wait drop next') s

section Agreement

variable {parts : σ → σ → Prop} {ends : α → Prop} {x y : Fiber σ α} {s : σ}

theorem agreeUntil_refl (x : Fiber σ α) (s : σ) : AgreeUntil parts (fun _ => True) x x s := by
  induction x generalizing s with
  | done a => exact .done trivial
  | look next ih => exact .look fun t => ih t s s
  | store s₁ next ih => exact .store fun _ => ih s₁
  | pause wait drop next ih => exact .pause ih

theorem AgreeUntil.ending {ends' : α → Prop} (h : AgreeUntil parts ends x y s) (hends : ∀ a, ends a → ends' a) :
    AgreeUntil parts ends' x y s := by
  induction h with
  | done ha => exact .done (hends _ ha)
  | look _ ih => exact .look ih
  | store _ ih => exact .store ih
  | pause _ ih => exact .pause ih

theorem AgreeUntil.andThen {ends' : β → Prop} {f g : α → Fiber σ β} (h : AgreeUntil parts ends x y s)
    (hf : ∀ a s, ends a → AgreeUntil parts ends' (f a) (g a) s) :
    AgreeUntil parts ends' (x.andThen f) (y.andThen g) s := by
  induction h with
  | done ha => exact hf _ _ ha
  | look _ ih => exact .look ih
  | store _ ih => exact .store ih
  | pause _ ih => exact .pause ih

/-- The same fiber, gone on with in two ways. -/
theorem agreeUntil_andThen {x : Fiber σ α} {ends' : β → Prop} {f g : α → Fiber σ β}
    (hf : ∀ a s, AgreeUntil parts ends' (f a) (g a) s) : AgreeUntil parts ends' (x.andThen f) (x.andThen g) s :=
  (agreeUntil_refl x s).andThen fun a s _ => hf a s

theorem AgreeUntil.protect (undo : σ → σ) (h : AgreeUntil parts ends x y s) :
    AgreeUntil parts ends (x.protect undo) (y.protect undo) s := by
  induction h with
  | done ha => exact .done ha
  | look _ ih => exact .look ih
  | store _ ih => exact .store ih
  | pause _ ih => exact .pause ih

theorem AgreeUntil.within (limit : Nat) (h : AgreeUntil parts ends x y s) :
    AgreeUntil parts (fun _ => True) (x.within limit) (y.within limit) s := by
  induction h generalizing limit with
  | done ha => exact .done trivial
  | look _ ih => exact .look fun t => ih t limit
  | store _ ih => exact .store fun hparts => ih hparts limit
  | pause _ ih =>
    unfold Fiber.within
    split
    · exact .pause fun s => ih s _
    · -- cut off, both are dropped in the same way
      exact agreeUntil_refl _ _

/-- What is left of two tasks. -/
def LeftAlike (parts : σ → σ → Prop) (ends : α → Prop) (one other : Task σ α) : Prop :=
  one.due = other.due ∧ ∀ s, AgreeUntil parts ends one.rest other.rest s

/-- Up to its next wait each makes a write at which they part, or they do the same. -/
theorem burst_agree (h : AgreeUntil parts ends x y s) (t : Instant) :
    ((∃ w ∈ (x.burst t s).writes, parts w.before w.after) ∧ ∃ w ∈ (y.burst t s).writes, parts w.before w.after) ∨
    (x.burst t s).state = (y.burst t s).state ∧ (x.burst t s).writes = (y.burst t s).writes ∧
      LeftAlike parts ends (x.burst t s).left (y.burst t s).left := by
  induction h with
  | done ha => exact .inr ⟨rfl, rfl, rfl, fun _ => .done ha⟩
  | look _ ih => exact ih t
  | @store s s₁ next next' _ ih =>
    by_cases hparts : parts s s₁
    · exact .inl ⟨⟨⟨t, s, s₁⟩, List.mem_cons_self, hparts⟩, ⟨⟨t, s, s₁⟩, List.mem_cons_self, hparts⟩⟩
    · rcases ih hparts with ⟨⟨w, hw, hbad⟩, v, hv, hbad'⟩ | ⟨hstate, hwrites, hleft⟩
      · exact .inl ⟨⟨w, List.mem_cons_of_mem _ hw, hbad⟩, v, List.mem_cons_of_mem _ hv, hbad'⟩
      · exact .inr ⟨hstate, congrArg (List.cons (⟨t, s, s₁⟩ : Write σ)) hwrites, hleft⟩
  | pause hnext => exact .inr ⟨rfl, rfl, rfl, hnext⟩

theorem LeftAlike.result? {one other : Task σ α} (h : LeftAlike parts ends one other) (s : σ) :
    one.rest.result? = other.rest.result? := by
  obtain ⟨due, x⟩ := one
  obtain ⟨due', y⟩ := other
  cases h.2 s <;> rfl

end Agreement

end Fiber

open ResilientClient.Fiber

namespace Crowd

variable {parts : σ → σ → Prop} {ends : α → Prop} {c c' : Crowd σ α}

/-- A write at which they part has been made. -/
def Parted (parts : σ → σ → Prop) (c : Crowd σ α) : Prop := ∃ entry ∈ c.writes, parts entry.2.before entry.2.after

/-- Two crowds are one so far. -/
structure Agree (parts : σ → σ → Prop) (ends : α → Prop) (c c' : Crowd σ α) : Prop where
  time : c.time = c'.time
  state : c.state = c'.state
  writes : c.writes = c'.writes
  tasks : List.Forall₂ (LeftAlike parts ends) c.tasks c'.tasks

theorem parted_advance (h : Parted parts c) (number : Nat) (task : Task σ α) :
    Parted parts (c.advance number task) := by
  obtain ⟨entry, hmem, hparts⟩ := h
  exact ⟨entry, List.mem_append_left _ hmem, hparts⟩

theorem parted_step (h : Parted parts c) (turn : Turn) : Parted parts (c.step turn) := by
  have hpassed : Parted parts (c.pass turn.wait) := h
  unfold step resume
  split
  · exact hpassed
  · split
    · exact parted_advance hpassed _ _
    · exact hpassed

theorem parted_of_burst {number : Nat} {task : Task σ α}
    (h : ∃ w ∈ (task.rest.burst c.time c.state).writes, parts w.before w.after) :
    Parted parts (c.advance number task) := by
  obtain ⟨w, hw, hparts⟩ := h
  exact ⟨(number, w), List.mem_append_right _ (List.mem_map_of_mem hw), hparts⟩

theorem forall₂_set {R : α → β → Prop} {l : List α} {l' : List β} (h : List.Forall₂ R l l') {a : α} {b : β}
    (hab : R a b) (number : Nat) : List.Forall₂ R (l.set number a) (l'.set number b) := by
  induction h generalizing number with
  | nil => exact .nil
  | cons hhead htail ih =>
    cases number with
    | zero => exact .cons hab htail
    | succ number => exact .cons hhead (ih number)

theorem forall₂_getElem? {R : α → β → Prop} {l : List α} {l' : List β} (h : List.Forall₂ R l l') (number : Nat) :
    (l[number]? = none ∧ l'[number]? = none) ∨ ∃ a b, l[number]? = some a ∧ l'[number]? = some b ∧ R a b := by
  induction h generalizing number with
  | nil => exact .inl ⟨rfl, rfl⟩
  | cons hhead htail ih =>
    cases number with
    | zero => exact .inr ⟨_, _, rfl, rfl, hhead⟩
    | succ number => exact ih number

/-- At a turn both make a write at which they part, or they stay one. -/
theorem Agree.step (h : Agree parts ends c c') (turn : Turn) :
    (Parted parts (c.step turn) ∧ Parted parts (c'.step turn)) ∨ Agree parts ends (c.step turn) (c'.step turn) := by
  obtain ⟨htime, hstate, hwrites, htasks⟩ := h
  have hpassed : (c.pass turn.wait).time = (c'.pass turn.wait).time := congrArg (· + turn.wait) htime
  unfold Crowd.step resume
  rcases forall₂_getElem? htasks turn.task with ⟨hone, hother⟩ | ⟨one, other, hone, hother, hdue, hrest⟩
  · have hone' : (c.pass turn.wait).tasks[turn.task]? = none := hone
    have hother' : (c'.pass turn.wait).tasks[turn.task]? = none := hother
    rw [hone', hother']
    exact .inr ⟨hpassed, hstate, hwrites, htasks⟩
  · have hone' : (c.pass turn.wait).tasks[turn.task]? = some one := hone
    have hother' : (c'.pass turn.wait).tasks[turn.task]? = some other := hother
    rw [hone', hother']
    dsimp only
    rw [hdue, hpassed]
    split
    · rcases burst_agree (hrest c.state) (c.pass turn.wait).time with ⟨hx, hy⟩ | ⟨hstate', hwrites', hleft⟩
      · rw [hpassed, hstate] at hy
        exact .inl ⟨parted_of_burst hx, parted_of_burst hy⟩
      · have hburst : (other.rest.burst (c.pass turn.wait).time c.state) =
            other.rest.burst (c'.pass turn.wait).time c'.state := by rw [hpassed, hstate]
        rw [hburst] at hstate' hwrites' hleft
        refine .inr ⟨hpassed, hstate', ?_, forall₂_set htasks hleft _⟩
        exact congrArg₂ (fun past ws => past ++ ws.map (turn.task, ·)) hwrites hwrites'
    · exact .inr ⟨hpassed, hstate, hwrites, htasks⟩

theorem Agree.run (turns : List Turn) (h : (Parted parts c ∧ Parted parts c') ∨ Agree parts ends c c') :
    (Parted parts (c.run turns) ∧ Parted parts (c'.run turns)) ∨ Agree parts ends (c.run turns) (c'.run turns) := by
  induction turns generalizing c c' with
  | nil => exact h
  | cons turn turns ih =>
    refine ih ?_
    rcases h with ⟨hparted, hparted'⟩ | h
    · exact .inl ⟨parted_step hparted turn, parted_step hparted' turn⟩
    · exact h.step turn

/-- If in one of two runs there is no write at which they part, the runs are the same. -/
theorem agree_run {tasks tasks' : List (Task σ α)} (h : List.Forall₂ (LeftAlike parts ends) tasks tasks')
    (t : Instant) (s : σ) (turns : List Turn) :
    let c := (start t s tasks).run turns
    let c' := (start t s tasks').run turns
    (¬ Parted parts c ∨ ¬ Parted parts c') → c.time = c'.time ∧ c.state = c'.state ∧ c.writes = c'.writes ∧
      ∀ number, c.result? number = c'.result? number := by
  intro c c' hnone
  have hstart : Agree parts ends (start t s tasks) (start t s tasks') := ⟨rfl, rfl, rfl, h⟩
  rcases Agree.run turns (.inr hstart) with ⟨hparted, hparted'⟩ | hagree
  · rcases hnone with hnone | hnone
    · exact absurd hparted hnone
    · exact absurd hparted' hnone
  · refine ⟨hagree.time, hagree.state, hagree.writes, fun number => ?_⟩
    unfold result?
    rcases forall₂_getElem? hagree.tasks number with ⟨hone, hother⟩ | ⟨one, other, hone, hother, hleft⟩
    · rw [hone, hother]
    · rw [hone, hother]
      exact hleft.result? s

end Crowd

end ResilientClient
