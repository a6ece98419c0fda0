/-
Spans as binary numbers of seconds, and back. The way there rounds three times, the way back once; for spans of less
than `2 ^ 23` seconds, some 97 days, the errors stay below half a nanosecond together, so every such span comes back as
it was (`ofBinary64_toBinary64`).
-/
import ResilientClient.Duration.Seconds
import ResilientClient.Proofs.Binary64.Rounding

namespace ResilientClient.Duration

open Binary64

variable {x : Binary64} {d : Duration}

theorem ofNanos_nanos (d : Duration) : ofNanos d.nanos = d := by
  cases d with
  | mk nanos le_max =>
    simp only [ofNanos, mk.injEq]
    exact Nat.min_eq_left le_max

theorem ofNanos_le {m n : Nat} (h : m ≤ n) : ofNanos m ≤ ofNanos n := min_le_min_right maxNanos h

theorem seconds_add_subsecond (d : Duration) : (d.seconds : ℚ) + d.subsecond / 1000000000 = d.nanos / 1000000000 := by
  have hsplit : (1000000000 : ℚ) * d.seconds + d.subsecond = d.nanos := by
    exact_mod_cast Nat.div_add_mod d.nanos 1000000000
  linarith

/-- The span of a number of seconds is the nearest number of nanoseconds. -/
theorem ofBinary64_near {q : ℚ} (h : Denotes x q) :
    ∃ n : Nat, ofBinary64 x = ofNanos n ∧ |(n : ℚ) - q * 1000000000| ≤ 1 / 2 := by
  obtain ⟨m, e, hx, rfl⟩ := h
  unfold ofBinary64
  rw [hx]
  dsimp only
  split
  · rename_i he
    refine ⟨_, rfl, ?_⟩
    push_cast
    rw [cast_twoTo_toNat he, sub_self, abs_zero]
    norm_num
  · rename_i he
    refine ⟨_, rfl, ?_⟩
    have hnear := roundDiv_near (m * 1000000000) (twoTo_pos (-e).toNat)
    rw [cast_twoTo_toNat (by omega), zpow_neg, div_inv_eq_mul] at hnear
    push_cast at hnear
    rwa [mul_right_comm]

theorem subsecond_le (d : Duration) : (d.subsecond : ℚ) / 1000000000 ≤ 1 - 1 / 1000000000 := by
  have hlt : d.subsecond + 1 ≤ 1000000000 := Nat.mod_lt _ (by decide)
  have hcast : (d.subsecond : ℚ) + 1 ≤ 1000000000 := by exact_mod_cast hlt
  linarith

/-- The part of a span below a second as a number of seconds. -/
theorem subsecond_near (d : Duration) :
    ∃ q, Denotes (ofNat d.subsecond / ofNat 1000000000) q ∧ |q - d.subsecond / 1000000000| ≤ 2 ^ (-54 : Int) := by
  have hlt : d.subsecond < 1000000000 := Nat.mod_lt _ (by decide)
  obtain ⟨num, den, hden, hratio, hword⟩ := div_eq_ofRatio (denotes_ofNat (n := d.subsecond) (by omega))
    (denotes_ofNat (n := 1000000000) (by norm_num)) (by norm_num)
  rw [hword]
  have hbelow : (num : ℚ) / den < 2 ^ (0 : Int) := by
    rw [hratio, zpow_zero]
    push_cast
    linarith [d.subsecond_le]
  obtain ⟨q, hq, hnear⟩ := denotes_ofRatio_near hden (by norm_num) (by norm_num) hbelow
  rw [hratio] at hnear
  exact ⟨q, hq, by simpa using hnear⟩

/-- A span of less than `2 ^ 23` seconds as a number of seconds, less than half a nanosecond away. -/
theorem toBinary64_near (h : d.seconds < 2 ^ 23) :
    ∃ q, Denotes d.toBinary64 q ∧ |q * 1000000000 - d.nanos| < 1 / 2 := by
  obtain ⟨f, hf, hfnear⟩ := d.subsecond_near
  obtain ⟨num, den, hden, hsum, hword⟩ := add_eq_ofRatio (denotes_ofNat (n := d.seconds) (by omega)) hf
  have hseconds : (d.seconds : ℚ) + 1 ≤ 2 ^ 23 := by exact_mod_cast h
  have hparts := d.seconds_add_subsecond
  have hsubsecond := d.subsecond_le
  norm_num at hfnear hseconds
  obtain ⟨hflow, hfhigh⟩ := abs_le.mp hfnear
  have hbelow : (num : ℚ) / den < 2 ^ (23 : Int) := by
    rw [hsum]
    norm_num
    linarith
  obtain ⟨q, hq, hnear⟩ := denotes_ofRatio_near hden (by norm_num) (by norm_num) hbelow
  rw [hsum] at hnear
  norm_num at hnear
  obtain ⟨hlow, hhigh⟩ := abs_le.mp hnear
  -- the quotient is off by at most `2 ^ -54` seconds and the sum by `2 ^ -31`
  refine ⟨q, by rwa [toBinary64, hword], abs_lt.mpr ⟨?_, ?_⟩⟩ <;> linarith

/-- A span of less than `2 ^ 23` seconds comes back as it was. -/
theorem ofBinary64_toBinary64 (h : d.seconds < 2 ^ 23) : ofBinary64 d.toBinary64 = d := by
  obtain ⟨q, hq, hthere⟩ := toBinary64_near h
  obtain ⟨n, hback, hnear⟩ := ofBinary64_near hq
  have hsame : n = d.nanos := eq_of_near <| calc
    |(n : ℚ) - d.nanos| ≤ |n - q * 1000000000| + |q * 1000000000 - d.nanos| := abs_sub_le _ _ _
    _ < 1 / 2 + 1 / 2 := add_lt_add_of_le_of_lt hnear hthere
    _ = 1 := by norm_num
  rw [hback, hsame, ofNanos_nanos]

/-- A number that is not above a whole number of seconds gives no longer span. -/
theorem ofBinary64_le {n : Nat} (hn : n < 2 ^ 53) (h : (ofNat n).lt x = false) : ofBinary64 x ≤ ofSeconds n := by
  rcases hx : x.value with _ | _ | ⟨_ | _, m, e⟩
  case finite.false =>
    have hdenotes : Denotes x (m * 2 ^ e) := ⟨m, e, hx, rfl⟩
    have hle : (m : ℚ) * 2 ^ e ≤ n := by
      rw [← not_lt, ← lt_iff (denotes_ofNat hn) hdenotes, h]
      decide
    obtain ⟨k, hback, hnear⟩ := ofBinary64_near hdenotes
    rw [hback]
    refine ofNanos_le (le_of_near (hnear.trans_lt (by norm_num)) ?_)
    push_cast
    linarith
  -- every other word gives the empty span
  all_goals
    simp only [ofBinary64, hx]
    exact Nat.zero_le _

end ResilientClient.Duration
