/-
Wrappers of exhausted retries around each other. Wrapping a failure removes one wrapper from it, so the failure
behind all of them stays the same, and with it its classes; but it is the direct source of the new wrapper only
if there was at most one to remove (`exhausted_flattening`).
-/
import ResilientClient.Proofs.Pipeline.Bare
import ResilientClient.Proofs.Pipeline.Faults

namespace ResilientClient.Error

/-! ## Layers of wrappers -/

/-- The number of wrappers around the failure that is behind them. -/
def wrappers : Error → Nat
  | .outOfRetries _ last => last.wrappers + 1
  | _ => 0

/-- The failure without its outermost wrapper. -/
def unwrapped : Error → Error
  | .outOfRetries _ last => last
  | e => e

variable (attempts : Nat) (e : Error)

theorem exhausted_eq : exhausted attempts e = .outOfRetries attempts e.unwrapped := by
  cases e <;> rfl

theorem rootCause_unwrapped : e.unwrapped.rootCause = e.rootCause := by
  cases e <;> rfl

theorem wrappers_unwrapped : e.unwrapped.wrappers = e.wrappers - 1 := by
  cases e <;> rfl

theorem wrappers_rootCause : e.rootCause.wrappers = 0 := by
  induction e with
  | outOfRetries _ _ ih => exact ih
  | _ => rfl

/-- Only what is no wrapper is behind itself. -/
theorem rootCause_eq_self_iff : e.rootCause = e ↔ e.wrappers = 0 := by
  constructor
  · intro h
    rw [← h, wrappers_rootCause]
  · intro h
    cases e with
    | outOfRetries => cases h
    | _ => rfl

/-- A failure holds the wrappers around the failure behind them, and those in it. -/
theorem exhaustions_eq : e.exhaustions = e.wrappers + e.rootCause.exhaustions := by
  induction e with
  | outOfRetries _ last ih =>
    rw [exhaustions, wrappers, rootCause, ih]
    omega
  | _ => simp [wrappers, rootCause]

/-! ## Classes -/

theorem retryHint?_rootCause : e.rootCause.retryHint? = e.retryHint? := by
  unfold retryHint?
  rw [rootCause_rootCause]

theorem isCircuitOpen_rootCause : e.rootCause.isCircuitOpen = e.isCircuitOpen := by
  unfold isCircuitOpen
  rw [rootCause_rootCause]

theorem isClientRequestError_rootCause : e.rootCause.isClientRequestError = e.isClientRequestError := by
  unfold isClientRequestError
  rw [status?_rootCause]

/-- A class that looks at the failure behind all wrappers does not see a new one. -/
theorem class_exhausted {α : Type} {f : Error → α} (hclass : ∀ e : Error, f e.rootCause = f e) :
    f (exhausted attempts e) = f e := by
  rw [← hclass (exhausted attempts e), rootCause_exhausted, hclass]

/-! ## Wrapping once more -/

/-- Wrapping takes off the outermost wrapper and puts on a new one. The source of the new wrapper is the failure
behind all wrappers exactly if there was at most one before; in any case this failure, and what is asked of it,
stays the same. -/
theorem exhausted_flattening : ∃ source, exhausted attempts e = .outOfRetries attempts source ∧
    (source = e.rootCause ↔ e.wrappers ≤ 1) ∧
    (exhausted attempts e).rootCause = e.rootCause ∧
    (exhausted attempts e).exhaustions = max 1 e.wrappers + e.rootCause.exhaustions ∧
    (exhausted attempts e).status? = e.status? ∧
    (exhausted attempts e).retryHint? = e.retryHint? ∧
    (exhausted attempts e).isCircuitOpen = e.isCircuitOpen ∧
    (exhausted attempts e).isClientRequestError = e.isClientRequestError := by
  refine ⟨e.unwrapped, exhausted_eq attempts e, ?_, rootCause_exhausted attempts e, ?_,
    class_exhausted attempts e status?_rootCause, class_exhausted attempts e retryHint?_rootCause,
    class_exhausted attempts e isCircuitOpen_rootCause, class_exhausted attempts e isClientRequestError_rootCause⟩
  · rw [← rootCause_unwrapped, eq_comm, rootCause_eq_self_iff, wrappers_unwrapped]
    omega
  · rw [exhausted_eq, exhaustions, exhaustions_eq, rootCause_unwrapped, wrappers_unwrapped]
    omega

/-- Of three wrappers around each other the middle one stays. -/
theorem nested_wrapper_stays :
    exhausted 3 (.outOfRetries 2 (.outOfRetries 1 (.timeout (.ofMillis 1000)))) =
      .outOfRetries 3 (.outOfRetries 1 (.timeout (.ofMillis 1000))) ∧
    ¬ ∀ (attempts : Nat) (e : Error), exhausted attempts e = .outOfRetries attempts e.rootCause := by
  refine ⟨rfl, fun hall => ?_⟩
  have hflat := hall 3 (.outOfRetries 2 (.outOfRetries 1 (.timeout (.ofMillis 1000))))
  cases hflat

end ResilientClient.Error
