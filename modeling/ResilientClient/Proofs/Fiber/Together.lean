/-
Fibers that run together, as a crowd. Two fibers that run together go on by turns, each as far as its next
wait, and so do all of a list: what their common fiber does is one way in which a crowd of them can go on
(`Plays`). So whatever holds of the crowds of some tasks, in every order of turns, holds of their common
run, and in that run every task ends (`Crowd.run_all`).
-/
import ResilientClient.Proofs.Fiber.Crowd

namespace ResilientClient

namespace Fiber

variable {σ α β γ : Type}

/-! ## Stretches without a wait -/

/-- A fiber goes on to what is left of it without waiting. -/
inductive Strides : Fiber σ α → Instant → σ → Fiber σ α → σ → Prop
  | stay {x : Fiber σ α} {t : Instant} {s : σ} : Strides x t s x s
  | look {next : Instant → σ → Fiber σ α} {t : Instant} {s : σ} {y : Fiber σ α} {s' : σ} :
      Strides (next t s) t s y s' → Strides (look next) t s y s'
  | store {s₁ : σ} {next : Fiber σ α} {t : Instant} {s : σ} {y : Fiber σ α} {s' : σ} :
      Strides next t s₁ y s' → Strides (store s₁ next) t s y s'

section Strides

variable {x y : Fiber σ α} {t : Instant} {s s' : σ}

theorem Strides.run_eq (h : Strides x t s y s') : x.run t s = y.run t s' := by
  induction h with
  | stay => rfl
  | look _ ih => exact ih
  | store _ ih => exact ih

theorem Strides.andThen (h : Strides x t s y s') (f : α → Fiber σ β) :
    Strides (x.andThen f) t s (y.andThen f) s' := by
  induction h with
  | stay => exact .stay
  | look _ ih => exact .look ih
  | store _ ih => exact .store ih

theorem Strides.alongside (h : Strides x t s y s') (resume : Fiber σ α → Fiber σ (β × α))
    (finish : α → Fiber σ (β × α)) (wait : Nat) (drop : σ → σ) :
    Strides (Fiber.alongside resume finish wait drop x) t s (Fiber.alongside resume finish wait drop y) s' := by
  induction h with
  | stay => exact .stay
  | look _ ih => exact .look ih
  | store _ ih => exact .store ih

end Strides

/-! ## Fibers that play tasks -/

/-- What a fiber does is one way in which tasks can go on, the results of which it yields. -/
inductive Plays (results : β → List α) : Fiber σ β → Instant → List (Task σ α) → Prop
  | ended {b : β} {t : Instant} {tasks : List (Task σ α)} :
      tasks.map Task.rest = (results b).map done → Plays results (done b) t tasks
  | wait {wait : Nat} {drop : σ → σ} {next : Fiber σ β} {t : Instant} {tasks : List (Task σ α)} :
      Plays results next (t + wait) tasks → Plays results (pause wait drop next) t tasks
  /-- A task that is due goes on up to its next wait. -/
  | turn {x : Fiber σ β} {y : σ → Fiber σ β} {t : Instant} {tasks : List (Task σ α)} {number : Nat}
      {rest : Fiber σ α} :
      tasks[number]? = some ⟨t, rest⟩ → (∀ s, Strides x t s (y s) (rest.burst t s).state) →
      (∀ s, Plays results (y s) t (tasks.set number (rest.burst t s).left)) → Plays results x t tasks

section Plays

variable {results : β → List α} {x : Fiber σ β} {t : Instant} {tasks : List (Task σ α)}

theorem Plays.pauseFor {wait : Nat} (drop : σ → σ) (h : Plays results x (t + wait) tasks) :
    Plays results (Fiber.pauseFor wait drop x) t tasks := by
  unfold Fiber.pauseFor
  split
  · rename_i h0; rwa [h0] at h
  · exact .wait h

/-- A change of the result changes nothing else. -/
theorem Plays.map {results' : γ → List α} (f : β → γ) (hf : ∀ b, results' (f b) = results b)
    (h : Plays results x t tasks) : Plays results' (x.andThen fun b => done (f b)) t tasks := by
  induction h with
  | ended h => exact .ended (by rw [hf]; exact h)
  | wait _ ih => exact .wait ih
  | turn hnumber hx _ ih => exact .turn hnumber (fun s => (hx s).andThen _) ih

/-- The first of the tasks takes a turn. -/
theorem plays_first {first : Fiber σ α}
    (h : ∀ s, ∃ y, Strides x t s y (first.burst t s).state ∧
      Plays results y t ((first.burst t s).left :: tasks)) :
    Plays results x t (⟨t, first⟩ :: tasks) := by
  choose y hx hy using h
  have hfirst : (⟨t, first⟩ :: tasks)[0]? = some ⟨t, first⟩ := rfl
  exact .turn hfirst hx hy

/-- The results of a task and of others, which two fibers play. -/
def resultsOfBoth (results : β → List α) (p : α × β) : List α := p.1 :: results p.2

/-- A task that has ended takes no more turns. -/
theorem Plays.beside_done (due : Instant) (a : α) (h : Plays results x t tasks) :
    Plays (resultsOfBoth results) (x.andThen fun b => done (a, b)) t (⟨due, done a⟩ :: tasks) := by
  induction h with
  | ended h => exact .ended (congrArg (done a :: ·) h)
  | wait _ ih => exact .wait ih
  | @turn x y t tasks number rest hnumber hx _ ih =>
    have hnext : (⟨due, done a⟩ :: tasks)[number + 1]? = some ⟨t, rest⟩ := hnumber
    exact .turn hnext (fun s => (hx s).andThen _) ih

end Plays

/-! ## Two fibers -/

theorem both_done (x : Fiber σ α) (b : β) : x.both (done b) = x.andThen fun a => done (a, b) := by
  induction x with
  | done a => rfl
  | look next ih => exact congrArg Fiber.look (funext fun t => funext fun s => ih t s)
  | store s next ih => exact congrArg (Fiber.store s) ih
  | pause wait drop next => rfl

section Both

variable {results : β → List α} {t : Instant}

/-- While the left fiber waits, the right one goes on until the left one is due. -/
theorem plays_alongside {next : Fiber σ α}
    (hnext : ∀ (right : Fiber σ β) (t : Instant) (tasks : List (Task σ α)), Plays results right t tasks →
      Plays (resultsOfBoth results) (next.both right) t (⟨t, next⟩ :: tasks))
    (drop : σ → σ) {right : Fiber σ β} {tasks : List (Task σ α)} (h : Plays results right t tasks)
    (wait : Nat) :
    Plays (resultsOfBoth results)
      (alongside next.both (fun b => next.andThen fun a => done (a, b)) wait drop right) t
      (⟨t + wait, next⟩ :: tasks) := by
  induction h generalizing wait with
  | @ended b t tasks h =>
    have hlast := hnext (done b) (t + wait) tasks (.ended h)
    rw [both_done] at hlast
    exact .wait hlast
  | @wait wait' drop' right t tasks h ih =>
    unfold alongside
    split
    · -- the left fiber is due first, and the right one waits for the rest of its time
      rename_i hle
      have hsum : t + wait + (wait' - wait) = t + wait' := by lia
      exact .wait (hnext _ _ tasks (.pauseFor drop' (hsum ▸ h)))
    · rename_i hlt
      have hsum : t + wait' + (wait - wait') = t + wait := by lia
      exact .wait (hsum ▸ ih (wait - wait'))
  | @turn right y t tasks number rest hnumber hx _ ih =>
    have hnumber' : (⟨t + wait, next⟩ :: tasks)[number + 1]? = some ⟨t, rest⟩ := hnumber
    exact .turn hnumber' (fun s => (hx s).alongside _ _ _ _) fun s => ih s wait

/-- The left of two fibers takes the first turn. -/
theorem strides_both (left : Fiber σ α) {right : Fiber σ β} {tasks : List (Task σ α)}
    (h : Plays results right t tasks) (s : σ) :
    ∃ y, Strides (left.both right) t s y (left.burst t s).state ∧
      Plays (resultsOfBoth results) y t ((left.burst t s).left :: tasks) := by
  induction left generalizing right t tasks s with
  | done a => exact ⟨_, .stay, h.beside_done t a⟩
  | look next ih => exact (ih t s h s).imp fun y hy => ⟨.look hy.1, hy.2⟩
  | store s₁ next ih => exact (ih h s₁).imp fun y hy => ⟨.store hy.1, hy.2⟩
  | pause wait drop next ih =>
    refine ⟨_, .stay, plays_alongside (fun right t tasks h => ?_) drop h wait⟩
    exact plays_first (ih h)

theorem plays_both {left : Fiber σ α} {right : Fiber σ β} {tasks : List (Task σ α)}
    (h : Plays results right t tasks) :
    Plays (resultsOfBoth results) (left.both right) t (⟨t, left⟩ :: tasks) :=
  plays_first (strides_both left h)

/-- The same when the left fiber starts later. -/
theorem plays_both_later {left : Fiber σ α} {right : Fiber σ β} {tasks : List (Task σ α)} (wait : Nat)
    (drop : σ → σ) (h : Plays results right t tasks) :
    Plays (resultsOfBoth results) ((pauseFor wait drop left).both right) t (⟨t + wait, left⟩ :: tasks) := by
  unfold pauseFor
  split
  · rename_i h0; rw [h0]; exact plays_both h
  · exact plays_alongside (fun _ _ _ h => plays_both h) drop h wait

end Both

/-! ## Many fibers -/

/-- Fibers that start after their waits and then run together play those fibers. -/
theorem plays_all (items : List (Nat × Fiber σ α)) (t : Instant) :
    Plays id (all (items.map fun i => pauseFor i.1 id i.2)) t (items.map fun i => ⟨t + i.1, i.2⟩) := by
  induction items with
  | nil => exact .ended rfl
  | cons i items ih => exact (plays_both_later i.1 id ih).map _ fun _ => rfl

end Fiber

open ResilientClient.Fiber

namespace Crowd

variable {σ α β : Type}

/-- A fiber that plays the tasks of a crowd runs as the crowd does, with some turns. -/
theorem run_plays {results : β → List α} {x : Fiber σ β} {t : Instant} {tasks : List (Task σ α)}
    (h : Plays results x t tasks) : ∀ (s : σ) (writes : List (Nat × Write σ)), ∃ turns,
      let c := (Crowd.mk t s tasks writes).run turns
      c.time = (x.run t s).2.1 ∧ c.state = (x.run t s).2.2 ∧
        c.tasks.map Task.rest = (results (x.run t s).1).map done := by
  induction h with
  | ended h => exact fun s writes => ⟨[], rfl, rfl, h⟩
  | @wait wait drop next t tasks _ ih =>
    intro s writes
    obtain ⟨turns, h⟩ := ih s writes
    -- there is no task of this number, so that the turn is only the wait
    have hstep : (Crowd.mk t s tasks writes).step ⟨wait, tasks.length⟩ =
        Crowd.mk (t + wait) s tasks writes := by
      simp [step, resume, pass]
    refine ⟨⟨wait, tasks.length⟩ :: turns, ?_⟩
    simp only [run, List.foldl_cons]
    rw [hstep]
    exact h
  | @turn x y t tasks number rest hnumber hx _ ih =>
    intro s writes
    obtain ⟨turns, h⟩ := ih s (rest.burst t s).state
      (writes ++ (rest.burst t s).writes.map (number, ·))
    have hstep : (Crowd.mk t s tasks writes).step ⟨0, number⟩ =
        Crowd.mk t (rest.burst t s).state (tasks.set number (rest.burst t s).left)
          (writes ++ (rest.burst t s).writes.map (number, ·)) := by
      simp [step, resume, pass, hnumber, advance]
    refine ⟨⟨0, number⟩ :: turns, ?_⟩
    simp only [run, List.foldl_cons]
    rw [hstep, (hx s).run_eq]
    exact h

/-- Fibers that start after their waits and run together go on as a crowd of them does with some turns,
and all of them end. -/
theorem run_all (items : List (Nat × Fiber σ α)) (t : Instant) (s : σ) : ∃ turns,
    let c := (start t s (items.map fun i => ⟨t + i.1, i.2⟩)).run turns
    let r := (all (items.map fun i => pauseFor i.1 id i.2)).run t s
    c.time = r.2.1 ∧ c.state = r.2.2 ∧ r.1.length = items.length ∧
      ∀ number, c.result? number = r.1[number]? := by
  obtain ⟨turns, htime, hstate, hends⟩ := run_plays (plays_all items t) s []
  refine ⟨turns, htime, hstate, ?_, fun number => ?_⟩
  · have hlength := congrArg List.length hends
    rw [List.length_map, List.length_map] at hlength
    exact hlength.symm.trans ((followed_run t s _ turns).1.trans (List.length_map _))
  have hrest := congrArg (fun rests : List (Fiber σ α) => rests[number]?.bind Fiber.result?) hends
  simpa [start, result?, Option.bind_map, Function.comp_def, Fiber.result?] using hrest

/-- With some turns all tasks of a crowd end. -/
theorem exists_all_ended {t : Instant} (s : σ) {tasks : List (Task σ α)} (h : ∀ task ∈ tasks, t ≤ task.due) :
    ∃ turns, ∀ number < tasks.length, (((start t s tasks).run turns).result? number).isSome := by
  obtain ⟨turns, -, -, hlength, hresults⟩ :=
    run_all (tasks.map fun task => (task.due - t, task.rest)) t s
  have htasks : (tasks.map fun task => (task.due - t, task.rest)).map
      (fun i => (⟨t + i.1, i.2⟩ : Task σ α)) = tasks := by
    rw [List.map_map]
    refine (List.map_congr_left fun task htask => ?_).trans (List.map_id _)
    simp only [Function.comp_apply, Nat.add_sub_cancel' (h task htask), id_eq]
  rw [htasks] at hresults
  rw [List.length_map] at hlength
  refine ⟨turns, fun number hnumber => ?_⟩
  rw [hresults number, List.getElem?_eq_getElem (hlength ▸ hnumber)]
  rfl

end Crowd

end ResilientClient
