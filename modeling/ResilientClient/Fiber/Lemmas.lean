/-
Sequencing of fibers: it is associative, the end is neutral on the right, and a sequence runs its
second part from where the first one ends.
-/
import ResilientClient.Fiber

namespace ResilientClient.Fiber

variable {σ α β γ : Type}

@[simp] theorem done_andThen (a : α) (f : α → Fiber σ β) : (done a).andThen f = f a := rfl

@[simp] theorem andThen_done (x : Fiber σ α) : x.andThen done = x := by
  induction x with
  | done a => rfl
  | look next ih => simp [andThen, ih]
  | store s next ih => simp [andThen, ih]
  | pause w drop next ih => simp [andThen, ih]

theorem andThen_assoc (x : Fiber σ α) (f : α → Fiber σ β) (g : β → Fiber σ γ) :
    (x.andThen f).andThen g = x.andThen fun a => (f a).andThen g := by
  induction x with
  | done a => rfl
  | look next ih => simp [andThen, ih]
  | store s next ih => simp [andThen, ih]
  | pause w drop next ih => simp [andThen, ih]

/-- A sequence runs its second part from the time and the state at the end of the first. -/
theorem run_andThen (x : Fiber σ α) (f : α → Fiber σ β) (t : Instant) (s : σ) :
    (x.andThen f).run t s = (f (x.run t s).1).run (x.run t s).2.1 (x.run t s).2.2 := by
  induction x generalizing t s with
  | done a => rfl
  | look next ih => simp [andThen, run, ih]
  | store s next ih => simp [andThen, run, ih]
  | pause w drop next ih => simp [andThen, run, ih]

end ResilientClient.Fiber
