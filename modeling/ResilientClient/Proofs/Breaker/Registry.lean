/-
Registries, one breaker at a time: what a registry does to the breaker of a key is what that breaker does
alone, and the breakers of other keys stay as they are.
-/
import ResilientClient.Breaker.Registry
import ResilientClient.Proofs.Breaker.Operations

namespace ResilientClient.BreakerRegistry

variable {r : BreakerRegistry} {key other : String} {b b' : Breaker} {t : Instant}

theorem get?_replace (r : BreakerRegistry) (key other : String) (b : Breaker) :
    (r.replace key b).get? other = (r.get? other).map fun old => if other = key then b else old := by
  -- replacing a breaker changes no key
  have hkeys : ((fun entry : String × Breaker => entry.1 == other) ∘
      fun entry => if entry.1 = key then (key, b) else entry) = fun entry => entry.1 == other := by
    funext entry
    by_cases h : entry.1 = key <;> simp [h]
  unfold get? replace
  rw [List.find?_map, hkeys, Option.map_map, Option.map_map]
  cases hfind : r.breakers.find? fun entry => entry.1 == other with
  | none => rfl
  | some entry =>
    have hother : entry.1 = other := by simpa using List.find?_some hfind
    subst hother
    by_cases h : entry.1 = key <;> simp [h]

/-- A breaker put in its own place changes nothing. -/
theorem get?_replace_eq (h : r.get? key = some b) : (r.replace key b).get? = r.get? := by
  funext other
  rw [get?_replace]
  by_cases hk : other = key
  · subst hk; rw [h, Option.map_some, if_pos rfl]
  · cases r.get? other with
    | none => rfl
    | some old => rw [Option.map_some, if_neg hk]

theorem forKey_of_some (h : r.get? key = some b) : r.forKey key t = (b, r) := by
  unfold forKey; rw [h]

theorem acquire_of_some (h : r.get? key = some b) :
    r.acquire key t = ((b.acquire t).1.map fun trial => ⟨key, trial⟩, r.replace key (b.acquire t).2.1,
      (b.acquire t).2.2.map (BreakerNotice.line key)) := by
  unfold acquire; rw [forKey_of_some h]

@[simp] theorem config_forKey (r : BreakerRegistry) (key : String) (t : Instant) :
    (r.forKey key t).2.config = r.config := by
  unfold forKey; split <;> rfl

/-- A breaker is created if there is none, and no other one is touched. -/
theorem get?_forKey (r : BreakerRegistry) (key other : String) (t : Instant) :
    (r.forKey key t).2.get? other =
      (r.get? other).or (if other = key then some (Breaker.create r.config t) else none) := by
  unfold forKey
  cases hkey : r.get? key with
  | some b =>
    by_cases hother : other = key
    · subst hother; simp [hkey]
    · simp [hother]
  | none =>
    by_cases hother : other = key
    · subst hother
      unfold get? at hkey ⊢
      rw [Option.map_eq_none_iff] at hkey
      simp [List.find?_append, hkey]
    · have hne : (key == other) = false := by simpa using fun h => hother h.symm
      unfold get?
      cases hfind : r.breakers.find? fun entry => entry.1 == other <;>
        simp [List.find?_append, hfind, hne, hother]

/-! ## The breaker of a key, if there is one -/

theorem forKey_fst (r : BreakerRegistry) (key : String) (t : Instant) :
    (r.forKey key t).1 = (r.get? key).getD (.create r.config t) := by
  unfold forKey
  split <;> simp_all

/-- The breaker of the key answers, or a new one. -/
theorem acquire_fst (r : BreakerRegistry) (key : String) (t : Instant) : (r.acquire key t).1 =
    (((r.get? key).getD (.create r.config t)).acquire t).1.map fun trial => ⟨key, trial⟩ := by
  rw [← forKey_fst]
  rfl

theorem get?_acquire (r : BreakerRegistry) (key : String) (t : Instant) : (r.acquire key t).2.1.get? key =
    some (((r.get? key).getD (.create r.config t)).acquire t).2.1 := by
  have hthere : ∃ b, (r.forKey key t).2.get? key = some b := by
    rw [get?_forKey, if_pos rfl]
    cases r.get? key with
    | none => exact ⟨_, rfl⟩
    | some b => exact ⟨b, rfl⟩
  obtain ⟨b, hb⟩ := hthere
  have hreplace : (r.acquire key t).2.1 = (r.forKey key t).2.replace key ((r.forKey key t).1.acquire t).2.1 := rfl
  rw [hreplace, get?_replace, hb, forKey_fst]
  simp

theorem get?_report (r : BreakerRegistry) (permit : Permit) (t : Instant) (v : Verdict) :
    (r.report permit t v).1.get? permit.key = (r.get? permit.key).map fun b => (b.report t permit.trial v).1 := by
  cases h : r.get? permit.key with
  | none => simp [report, h]
  | some b => simp [report, h, get?_replace]

theorem get?_release (r : BreakerRegistry) (permit : Permit) : (r.release permit).get? permit.key =
    (r.get? permit.key).map fun b => if permit.trial then b.releaseTrial else b := by
  cases h : r.get? permit.key with
  | none => simp [release, h]
  | some b => simp [release, h, get?_replace]

theorem get?_acquire_of_some (h : r.get? key = some b) :
    (r.acquire key t).2.1.get? key = some (b.acquire t).2.1 := by
  rw [get?_acquire, h, Option.getD_some]

theorem get?_report_of_some {permit : Permit} {v : Verdict} (h : r.get? permit.key = some b) :
    (r.report permit t v).1.get? permit.key = some (b.report t permit.trial v).1 := by
  rw [get?_report, h, Option.map_some]

/-! ## Rejections -/

/-- Only a breaker that is there rejects. -/
theorem exists_of_acquire_eq_none (h : (r.acquire key t).1 = none) :
    ∃ b, r.get? key = some b ∧ (b.acquire t).1 = none := by
  rw [acquire_fst, Option.map_eq_none_iff] at h
  cases hb : r.get? key with
  | some b =>
    rw [hb] at h
    exact ⟨b, rfl, h⟩
  | none =>
    -- a breaker that is created now is closed
    have hnew : (Breaker.create r.config t).acquire t =
        (some false, (Breaker.create r.config t).rollWindow t, []) := Breaker.acquire_of_closed rfl
    rw [hb, Option.getD_none, hnew] at h
    cases h

/-- A rejection leaves every breaker as it is. -/
theorem get?_acquire_of_none (h : (r.acquire key t).1 = none) :
    (r.acquire key t).2.1.get? = r.get? := by
  obtain ⟨b, hb, hnone⟩ := exists_of_acquire_eq_none h
  have hsame : (b.acquire t).2.1 = b := by
    have ha := Breaker.acquire_answer b t
    rw [hnone] at ha
    generalize (b.acquire t).2.1 = after at ha ⊢
    cases ha <;> rfl
  rw [acquire_of_some hb, hsame]
  exact get?_replace_eq hb

/-! ## The configuration -/

@[simp] theorem config_acquire (r : BreakerRegistry) (key : String) (t : Instant) :
    (r.acquire key t).2.1.config = r.config := config_forKey r key t

@[simp] theorem config_report (r : BreakerRegistry) (permit : Permit) (t : Instant) (v : Verdict) :
    (r.report permit t v).1.config = r.config := by
  unfold report
  split <;> rfl

@[simp] theorem config_release (r : BreakerRegistry) (permit : Permit) : (r.release permit).config = r.config := by
  unfold release
  split <;> rfl

end ResilientClient.BreakerRegistry
