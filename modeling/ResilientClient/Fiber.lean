/-
Fibers: computations that read a clock, change a shared state and wait. A fiber says what it does
next each time it is resumed; running it alone, running several together and cutting it off after
a time limit are functions on fibers. A wait carries what has to be undone when the fiber is
dropped during it.
-/
import ResilientClient.Duration.Basic

namespace ResilientClient

/-- A point in time, in nanoseconds since the clock started. -/
abbrev Instant := Nat

/-- A computation over a shared state `σ` that yields an `α`. -/
inductive Fiber (σ α : Type) where
  /-- The end, with the result. -/
  | done (result : α)
  /-- Reads the clock and the state. -/
  | look (next : Instant → σ → Fiber σ α)
  /-- Replaces the state. -/
  | store (state : σ) (next : Fiber σ α)
  /-- Waits; `drop` is applied to the state if the fiber is dropped before the wait ends. -/
  | pause (wait : Nat) (drop : σ → σ) (next : Fiber σ α)

namespace Fiber

variable {σ τ α β : Type}

/-! ## Sequencing -/

/-- Goes on with what `f` makes of the result. -/
def andThen (fiber : Fiber σ α) (f : α → Fiber σ β) : Fiber σ β :=
  match fiber with
  | done a => f a
  | look next => look fun t s => (next t s).andThen f
  | store s next => store s (next.andThen f)
  | pause w drop next => pause w drop (next.andThen f)

instance : Monad (Fiber σ) where
  pure := done
  bind := andThen

/-- The point in time. -/
def now : Fiber σ Instant := look fun t _ => done t

/-- The state. -/
def get : Fiber σ σ := look fun _ s => done s

/-- Changes the state. -/
def modify (f : σ → σ) : Fiber σ Unit := look fun _ s => store (f s) (done ())

/-- Changes the state and yields a value. -/
def modifyGet (f : Instant → σ → α × σ) : Fiber σ α :=
  look fun t s => store (f t s).2 (done (f t s).1)

/-- The grid of the clock's timers, in nanoseconds: one millisecond. -/
def tick : Nat := 1000000

/-- The longest wait, in nanoseconds: thirty years of 365 days. -/
def longestWait : Nat := 30 * 365 * 86400 * 1000000000

/-- The wait for a span: rounded up to whole ticks, and cut at the longest wait. -/
def waitOf (d : Duration) : Nat := min ((d.nanos + (tick - 1)) / tick * tick) longestWait

/-- Waits, unless there is nothing to wait for. -/
def pauseFor (wait : Nat) (drop : σ → σ) (next : Fiber σ α) : Fiber σ α :=
  if wait = 0 then next else pause wait drop next

/-- Waits for a span. -/
def sleep (d : Duration) : Fiber σ Unit := pauseFor (waitOf d) id (done ())

/-! ## Running -/

/-- Runs a fiber alone from a point in time; yields its result, the time at its end and the
state. -/
def run (fiber : Fiber σ α) (t : Instant) (s : σ) : α × Instant × σ :=
  match fiber with
  | done a => (a, t, s)
  | look next => (next t s).run t s
  | store s' next => next.run t s'
  | pause w _ next => next.run (t + w) s

/-! ## Changes of view -/

/-- A fiber over a part of the state as one over the whole. -/
def zoom (part : σ → τ) (put : τ → σ → σ) (fiber : Fiber τ α) : Fiber σ α :=
  match fiber with
  | done a => done a
  | look next => look fun t s => (next t (part s)).zoom part put
  | store p next => look fun _ s => store (put p s) (next.zoom part put)
  | pause w drop next => pause w (fun s => put (drop (part s)) s) (next.zoom part put)

/-- Adds what has to be undone when the fiber is dropped. -/
def protect (undo : σ → σ) (fiber : Fiber σ α) : Fiber σ α :=
  match fiber with
  | done a => done a
  | look next => look fun t s => (next t s).protect undo
  | store s next => store s (next.protect undo)
  | pause w drop next => pause w (fun s => undo (drop s)) (next.protect undo)

/-! ## Time limits -/

/-- The end of a fiber that is cut off after a last wait. -/
def cutOff (wait : Nat) (drop : σ → σ) : Fiber σ (Option α) :=
  pauseFor wait drop (look fun _ s => store (drop s) (done none))

/-- Runs a fiber for at most `limit`; what is due at the limit itself is still done. A fiber that
has to wait beyond the limit is dropped there and yields nothing. -/
def within (limit : Nat) (fiber : Fiber σ α) : Fiber σ (Option α) :=
  match fiber with
  | done a => done (some a)
  | look next => look fun t s => (next t s).within limit
  | store s next => store s (next.within limit)
  | pause w drop next =>
    if w ≤ limit then pause w drop (next.within (limit - w)) else cutOff limit drop

/-- Runs a fiber for at most a span. -/
def timeout (limit : Duration) (fiber : Fiber σ α) : Fiber σ (Option α) :=
  fiber.within (waitOf limit)

/-! ## Running together -/

/-- Runs the right fiber while the left one has still to wait; `resume` goes on with both when the
left one is due, and `finish` goes on with the left one when the right one has ended. -/
def alongside (resume : Fiber σ β → Fiber σ (α × β)) (finish : β → Fiber σ (α × β)) (wait : Nat)
    (drop : σ → σ) (right : Fiber σ β) : Fiber σ (α × β) :=
  match right with
  | done b => pause wait drop (finish b)
  | look next => look fun t s => alongside resume finish wait drop (next t s)
  | store s next => store s (alongside resume finish wait drop next)
  | pause w drop' next =>
    let dropBoth := fun s => drop' (drop s)
    if wait ≤ w then pause wait dropBoth (resume (pauseFor (w - wait) drop' next))
    else pause w dropBoth (alongside resume finish (wait - w) drop next)

/-- Runs two fibers together: each runs up to its next wait, and the one that is due first is
resumed first, the left one when both are due at once. -/
def both (left : Fiber σ α) (right : Fiber σ β) : Fiber σ (α × β) :=
  match left with
  | done a => right.andThen fun b => done (a, b)
  | look next => look fun t s => (next t s).both right
  | store s next => store s (next.both right)
  | pause w drop next =>
    alongside next.both (fun b => next.andThen fun a => done (a, b)) w drop right

/-- Runs fibers together, those that come earlier in the list first. -/
def all : List (Fiber σ α) → Fiber σ (List α)
  | [] => done []
  | fiber :: rest => (fiber.both (all rest)).andThen fun p => done (p.1 :: p.2)

end Fiber

end ResilientClient
