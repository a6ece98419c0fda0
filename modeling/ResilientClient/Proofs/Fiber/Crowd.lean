/-
Crowds: fibers that share a clock and a state, one of which goes on at each turn. A task goes on exactly
when it is due, up to its next wait, and any of those that are due may come first; a task that is passed
over never goes on. Each task so follows a path of its own fiber, whatever the others do
(`ended_run`).
-/
import ResilientClient.Proofs.Fiber.Path

namespace ResilientClient

namespace Fiber

variable {σ α : Type}

/-- The result of a fiber that has ended. -/
def result? : Fiber σ α → Option α
  | done a => some a
  | _ => none

theorem eq_done_of_result? {x : Fiber σ α} {a : α} (h : x.result? = some a) : x = done a := by
  cases x with
  | done b => cases h; rfl
  | look | store | pause => cases h

/-- What is left of a fiber that waits or has ended, and when it is due. -/
structure Task (σ α : Type) where
  due : Instant
  rest : Fiber σ α

/-- The way of a fiber up to its next wait or to its end. -/
structure Burst (σ α : Type) where
  writes : List (Write σ)
  state : σ
  left : Task σ α

/-- Goes on up to the next wait or to the end. -/
def burst : Fiber σ α → Instant → σ → Burst σ α
  | done a, t, s => ⟨[], s, ⟨t, done a⟩⟩
  | look next, t, s => (next t s).burst t s
  | store s₁ next, t, s =>
    let b := next.burst t s₁
    { b with writes := ⟨t, s, s₁⟩ :: b.writes }
  | pause wait _ next, t, s => ⟨[], s, ⟨t + wait, next⟩⟩

/-- A burst is a path, to the end or to any state after the wait. -/
theorem goes_burst (x : Fiber σ α) (t : Instant) (s : σ) :
    (∃ a, (x.burst t s).left = ⟨t, done a⟩ ∧ Ends x t s (x.burst t s).writes a t (x.burst t s).state) ∨
    ∀ s₁, Goes x t s (x.burst t s).writes (x.burst t s).left.rest (x.burst t s).left.due s₁ := by
  induction x generalizing s with
  | done a => exact .inl ⟨a, rfl, .stay⟩
  | look next ih =>
    rcases ih t s s with ⟨a, hl, hx⟩ | hx
    · exact .inl ⟨a, hl, .look hx⟩
    · exact .inr fun s₁ => .look (hx s₁)
  | store s₀ next ih =>
    rcases ih s₀ with ⟨a, hl, hx⟩ | hx
    · exact .inl ⟨a, hl, .store hx⟩
    · exact .inr fun s₁ => .store (hx s₁)
  | pause wait drop next => exact .inr fun s₁ => .pause .stay

end Fiber

open ResilientClient.Fiber

/-- A wait, after which a task may go on. -/
structure Turn where
  wait : Nat
  task : Nat
deriving DecidableEq, Repr

/-- Tasks that share a clock and a state. -/
structure Crowd (σ α : Type) where
  time : Instant
  state : σ
  tasks : List (Task σ α)
  /-- All writes, in order, with the numbers of the tasks that made them. -/
  writes : List (Nat × Write σ)

namespace Crowd

variable {σ α : Type}

def start (time : Instant) (state : σ) (tasks : List (Task σ α)) : Crowd σ α := ⟨time, state, tasks, []⟩

def pass (c : Crowd σ α) (wait : Nat) : Crowd σ α := { c with time := c.time + wait }

/-- A task goes on. -/
def advance (c : Crowd σ α) (number : Nat) (task : Task σ α) : Crowd σ α :=
  let b := task.rest.burst c.time c.state
  { c with
    state := b.state
    tasks := c.tasks.set number b.left
    writes := c.writes ++ b.writes.map (number, ·) }

/-- A task goes on if it is due. -/
def resume (c : Crowd σ α) (number : Nat) : Crowd σ α :=
  match c.tasks[number]? with
  | none => c
  | some task => if task.due = c.time then c.advance number task else c

def step (c : Crowd σ α) (turn : Turn) : Crowd σ α := (c.pass turn.wait).resume turn.task

def run (c : Crowd σ α) (turns : List Turn) : Crowd σ α := turns.foldl step c

/-- The writes of one task. -/
def writesOf (c : Crowd σ α) (number : Nat) : List (Write σ) :=
  (c.writes.filter fun entry => entry.1 == number).map Prod.snd

/-- The result of a task that has ended. -/
def result? (c : Crowd σ α) (number : Nat) : Option α :=
  c.tasks[number]?.bind fun task => task.rest.result?

/-- What holds at the start, survives waiting and survives that a task that is due goes on, holds after
every run. -/
theorem run_induction {P : Crowd σ α → Prop} (hpass : ∀ c wait, P c → P (c.pass wait))
    (hadvance : ∀ c number task, P c → c.tasks[number]? = some task → task.due = c.time →
      P (c.advance number task)) :
    ∀ (turns : List Turn) (c : Crowd σ α), P c → P (c.run turns)
  | [], _, h => h
  | turn :: turns, c, h => by
    refine run_induction hpass hadvance turns (c.step turn) ?_
    have hpassed := hpass c turn.wait h
    unfold step resume
    split
    · exact hpassed
    · rename_i task htask
      split
      · rename_i hdue; exact hadvance _ _ task hpassed htask hdue
      · exact hpassed

/-! ## Every task follows a path of its own -/

theorem writesOf_advance_self (c : Crowd σ α) (number : Nat) (task : Task σ α) :
    (c.advance number task).writesOf number =
      c.writesOf number ++ (task.rest.burst c.time c.state).writes := by
  have hmap : ∀ ws : List (Write σ),
      ((ws.map (number, ·)).filter fun entry => entry.1 == number).map Prod.snd = ws := by
    intro ws
    induction ws with
    | nil => rfl
    | cons w ws ih => simpa using ih
  simp only [writesOf, advance, List.filter_append, List.map_append, hmap]

theorem writesOf_advance_other (c : Crowd σ α) {number other : Nat} (h : other ≠ number)
    (task : Task σ α) : (c.advance number task).writesOf other = c.writesOf other := by
  have hnone : ∀ ws : List (Write σ),
      (ws.map (number, ·)).filter (fun entry => entry.1 == other) = [] := by
    intro ws
    simp [List.filter_eq_nil_iff, Ne.symm h]
  simp only [writesOf, advance, List.filter_append, hnone, List.append_nil]

/-- A task has come, on a path with these writes, from where it began to where it is. -/
def Followed (first : Task σ α) (ws : List (Write σ)) (now : Task σ α) : Prop :=
  (∃ a s₀ s₁, now.rest = done a ∧ Ends first.rest first.due s₀ ws a now.due s₁) ∨
  ∀ s₁, ∃ s₀, Goes first.rest first.due s₀ ws now.rest now.due s₁

theorem Followed.burst {first now : Task σ α} {ws : List (Write σ)} (h : Followed first ws now) (s : σ) :
    Followed first (ws ++ (now.rest.burst now.due s).writes) (now.rest.burst now.due s).left := by
  rcases h with ⟨a, s₀, s₁, hrest, hends⟩ | hgoes
  · -- a task that has ended stays as it is
    have hleft : (now.rest.burst now.due s).left = ⟨now.due, done a⟩ := by rw [hrest]; rfl
    have hnone : (now.rest.burst now.due s).writes = [] := by rw [hrest]; rfl
    rw [hleft, hnone, List.append_nil]
    exact .inl ⟨a, s₀, s₁, rfl, hends⟩
  · obtain ⟨s₀, hfirst⟩ := hgoes s
    rcases goes_burst now.rest now.due s with ⟨a, hleft, hends⟩ | hnext
    · rw [hleft]
      exact .inl ⟨a, s₀, _, rfl, hfirst.trans hends⟩
    · exact .inr fun s₁ => ⟨s₀, hfirst.trans (hnext s₁)⟩

theorem followed_run (t : Instant) (s : σ) (tasks : List (Task σ α)) (turns : List Turn) :
    let c := (start t s tasks).run turns
    c.tasks.length = tasks.length ∧ ∀ number first now, tasks[number]? = some first →
      c.tasks[number]? = some now → Followed first (c.writesOf number) now := by
  refine run_induction
    (P := fun c => c.tasks.length = tasks.length ∧ ∀ number first now, tasks[number]? = some first →
      c.tasks[number]? = some now → Followed first (c.writesOf number) now)
    (fun c wait h => h) (fun c turned task ⟨hlen, h⟩ htask hdue => ?_) turns (start t s tasks) ⟨rfl, ?_⟩
  · refine ⟨by simp [advance, hlen], fun number first now hfirst hnow => ?_⟩
    by_cases hn : number = turned
    · subst hn
      have hlt : number < c.tasks.length := (List.getElem?_eq_some_iff.1 htask).1
      simp only [advance, List.getElem?_set_self hlt, Option.some.injEq] at hnow
      rw [writesOf_advance_self, ← hnow, ← hdue]
      exact (h number first task hfirst htask).burst c.state
    · simp only [advance, List.getElem?_set_ne (Ne.symm hn)] at hnow
      rw [writesOf_advance_other c hn]
      exact h number first now hfirst hnow
  · intro number first now hfirst hnow
    obtain rfl : first = now := Option.some.inj (hfirst.symm.trans hnow)
    exact .inr fun s₁ => ⟨s₁, .stay⟩

/-- A task that has ended went a path of its fiber from the time at which it was first due. -/
theorem ended_run {t : Instant} {s : σ} {tasks : List (Task σ α)} {turns : List Turn} {number : Nat}
    {a : α} (h : ((start t s tasks).run turns).result? number = some a) :
    ∃ first, tasks[number]? = some first ∧ ∃ s₀ t₁ s₁,
      Ends first.rest first.due s₀ (((start t s tasks).run turns).writesOf number) a t₁ s₁ := by
  obtain ⟨hlen, hall⟩ := followed_run t s tasks turns
  obtain ⟨now, hnow, hresult⟩ := Option.bind_eq_some_iff.1 h
  have hdone := eq_done_of_result? hresult
  obtain ⟨first, hfirst⟩ : ∃ first, tasks[number]? = some first := by
    have hlt := (List.getElem?_eq_some_iff.1 hnow).1
    exact ⟨tasks[number], List.getElem?_eq_getElem (hlen ▸ hlt)⟩
  refine ⟨first, hfirst, ?_⟩
  rcases hall number first now hfirst hnow with ⟨b, s₀, s₁, hb, hends⟩ | hgoes
  · obtain rfl : b = a := Fiber.done.inj (hb.symm.trans hdone)
    exact ⟨s₀, now.due, s₁, hends⟩
  · obtain ⟨s₀, hfirst⟩ := hgoes s
    rw [hdone] at hfirst
    exact ⟨s₀, now.due, s, hfirst⟩

end Crowd

end ResilientClient
