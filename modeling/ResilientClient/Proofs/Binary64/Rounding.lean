/-
Rounding to words of the binary format. A quotient is rounded to an integer at most a half away (`roundDiv_near`), so
the word of a ratio denotes a number at most half a unit in the last place away from it (`denotes_ofRatio`); natural
numbers below `2 ^ 53` are exact (`denotes_ofNat`). Quotients and sums of words are words of the exact results
(`div_eq_ofRatio`, `add_eq_ofRatio`).
-/
import ResilientClient.Binary64.Basic
import Mathlib.Algebra.Order.Field.Power
import Mathlib.Tactic

namespace ResilientClient.Binary64

/-! ## Powers of two -/

theorem cast_twoTo (n : Nat) : ((twoTo n : Nat) : ℚ) = 2 ^ n := by
  have hpow : twoTo n = 2 ^ n := rfl
  rw [hpow]
  push_cast
  rfl

theorem cast_twoTo_toNat {e : Int} (h : 0 ≤ e) : ((twoTo e.toNat : Nat) : ℚ) = 2 ^ e := by
  rw [cast_twoTo, ← zpow_natCast, Int.toNat_of_nonneg h]

theorem twoTo_pos (n : Nat) : 0 < twoTo n := Nat.pow_pos (by decide)

theorem twoTo_52 : twoTo 52 = 4503599627370496 := by decide

theorem infinityField_eq : infinityField = 9218868437227405312 := by decide

/-! ## Integers near a number -/

section Near

variable {m n : Nat} {q : ℚ}

theorem le_of_near (hnear : |(m : ℚ) - q| < 1) (h : q ≤ n) : m ≤ n := by
  have hlt : (m : ℚ) < (n + 1 : Nat) := by
    push_cast
    linarith [(abs_lt.mp hnear).2]
  exact Nat.lt_succ_iff.mp (by exact_mod_cast hlt)

theorem ge_of_near (hnear : |(m : ℚ) - q| < 1) (h : n ≤ q) : n ≤ m := by
  have hlt : (n : ℚ) < (m + 1 : Nat) := by
    push_cast
    linarith [(abs_lt.mp hnear).1]
  exact Nat.lt_succ_iff.mp (by exact_mod_cast hlt)

theorem eq_of_near (hnear : |(m : ℚ) - n| < 1) : m = n :=
  Nat.le_antisymm (le_of_near hnear le_rfl) (ge_of_near hnear le_rfl)

end Near

/-! ## Quotients -/

theorem roundDiv_cases (num den : Nat) :
    roundDiv num den = num / den ∧ 2 * (num % den) ≤ den ∨
    roundDiv num den = num / den + 1 ∧ den ≤ 2 * (num % den) := by
  unfold roundDiv
  grind

/-- A rounded quotient is at most a half away from the quotient. -/
theorem roundDiv_near (num : Nat) {den : Nat} (hden : 0 < den) :
    |(roundDiv num den : ℚ) - num / den| ≤ 1 / 2 := by
  have hpos : (0 : ℚ) < den := by exact_mod_cast hden
  have hsplit : (num : ℚ) / den = (num / den : Nat) + (num % den : Nat) / den := by
    have hdiv : (den : ℚ) * (num / den : Nat) + (num % den : Nat) = num := by
      exact_mod_cast Nat.div_add_mod num den
    field_simp
    linarith
  rw [hsplit, abs_le]
  rcases roundDiv_cases num den with ⟨hround, hrest⟩ | ⟨hround, hrest⟩
  · have hnonneg : (0 : ℚ) ≤ (num % den : Nat) / den := by positivity
    have hlow : ((num % den : Nat) : ℚ) / den ≤ 1 / 2 := by
      rw [div_le_div_iff₀ hpos (by norm_num)]
      exact_mod_cast (by omega : num % den * 2 ≤ 1 * den)
    rw [hround]
    constructor <;> linarith
  · have hbelow : ((num % den : Nat) : ℚ) / den ≤ 1 := by
      rw [div_le_one hpos]
      exact_mod_cast (Nat.mod_lt num hden).le
    have hhigh : 1 / 2 ≤ ((num % den : Nat) : ℚ) / den := by
      rw [div_le_div_iff₀ (by norm_num) hpos]
      exact_mod_cast (by omega : 1 * den ≤ num % den * 2)
    rw [hround]
    push_cast
    constructor <;> linarith

/-- The two parts of a scaled ratio. -/
theorem scaled_ratio (num : Nat) {den : Nat} (e : Int) :
    ((scaled num den e).1 : ℚ) / (scaled num den e).2 = num / den / 2 ^ e := by
  unfold scaled
  split
  · rename_i h
    push_cast
    rw [cast_twoTo_toNat h, div_div]
  · rename_i h
    push_cast
    rw [cast_twoTo_toNat (by omega), zpow_neg]
    ring

theorem scaled_den_pos (num : Nat) {den : Nat} (hden : 0 < den) (e : Int) : 0 < (scaled num den e).2 := by
  unfold scaled
  split
  · exact Nat.mul_pos hden (twoTo_pos _)
  · exact hden

/-! ## The scale of a ratio -/

theorem log2_le_cast {n : Nat} (h : n ≠ 0) : (2 : ℚ) ^ (Nat.log2 n : Int) ≤ n := by
  rw [zpow_natCast]
  exact_mod_cast Nat.log2_self_le h

theorem cast_lt_log2 (n : Nat) : (n : ℚ) < 2 ^ ((Nat.log2 n : Int) + 1) := by
  have hlt : n < 2 ^ (Nat.log2 n + 1) := Nat.lt_log2_self
  have hcast : ((Nat.log2 n : Int) + 1) = ((Nat.log2 n + 1 : Nat) : Int) := by push_cast; rfl
  rw [hcast, zpow_natCast]
  exact_mod_cast hlt

/-- The logarithms of its parts give that of a ratio, with an error of one. -/
theorem log2_ratio {num den : Nat} (hnum : num ≠ 0) (hden : den ≠ 0) :
    (2 : ℚ) ^ ((Nat.log2 num : Int) - Nat.log2 den - 1) < num / den ∧
    (num : ℚ) / den < 2 ^ ((Nat.log2 num : Int) - Nat.log2 den + 1) := by
  have hpos : (0 : ℚ) < den := by exact_mod_cast Nat.pos_of_ne_zero hden
  have hn := log2_le_cast hnum
  have hn' := cast_lt_log2 num
  have hd := log2_le_cast hden
  have hd' := cast_lt_log2 den
  constructor
  · rw [lt_div_iff₀ hpos]
    calc (2 : ℚ) ^ ((Nat.log2 num : Int) - Nat.log2 den - 1) * den
        < 2 ^ ((Nat.log2 num : Int) - Nat.log2 den - 1) * 2 ^ ((Nat.log2 den : Int) + 1) :=
          mul_lt_mul_of_pos_left hd' (zpow_pos two_pos _)
      _ = 2 ^ (Nat.log2 num : Int) := by rw [← zpow_add₀ two_ne_zero]; congr 1; ring
      _ ≤ num := hn
  · rw [div_lt_iff₀ hpos]
    calc (num : ℚ) < 2 ^ ((Nat.log2 num : Int) + 1) := hn'
      _ = 2 ^ ((Nat.log2 num : Int) - Nat.log2 den + 1) * 2 ^ (Nat.log2 den : Int) := by
          rw [← zpow_add₀ two_ne_zero]; congr 1; ring
      _ ≤ 2 ^ ((Nat.log2 num : Int) - Nat.log2 den + 1) * den :=
          mul_le_mul_of_nonneg_left hd (zpow_pos two_pos _).le

/-- Whether a scaled ratio has at most 53 bits. -/
theorem scaled_lt_iff (num : Nat) {den : Nat} (hden : 0 < den) (e : Int) :
    (scaled num den e).1 / (scaled num den e).2 < twoTo 53 ↔ (num : ℚ) / den < 2 ^ (e + 53) := by
  have hpos := scaled_den_pos num hden e
  have hcast : (0 : ℚ) < (scaled num den e).2 := by exact_mod_cast hpos
  have hbits : (2 : ℚ) ^ (e + 53) = 2 ^ e * (twoTo 53 : Nat) := by
    rw [cast_twoTo, ← zpow_natCast, ← zpow_add₀ two_ne_zero]
    rfl
  rw [hbits, ← div_lt_iff₀' (zpow_pos two_pos e), ← scaled_ratio, div_lt_iff₀ hcast, Nat.div_lt_iff_lt_mul hpos]
  exact_mod_cast Iff.rfl

/-- At its scale a ratio is below `2 ^ 53`, and not below `2 ^ 52` unless the scale is the smallest one. -/
theorem scaleOf_bounds {num den : Nat} (hnum : num ≠ 0) (hden : den ≠ 0) :
    -1074 ≤ scaleOf num den ∧ (num : ℚ) / den < 2 ^ (scaleOf num den + 53) ∧
    (scaleOf num den = -1074 ∨ (2 : ℚ) ^ (scaleOf num den + 52) ≤ num / den) := by
  obtain ⟨hlow, hhigh⟩ := log2_ratio hnum hden
  generalize hk : (Nat.log2 num : Int) - Nat.log2 den = k at hlow hhigh
  -- the exponent that gives 53 bits, before it is raised to the smallest one
  obtain ⟨e, hscale, hbelow, hleast⟩ : ∃ e, scaleOf num den = max e (-1074) ∧
      (num : ℚ) / den < 2 ^ (e + 53) ∧ (2 : ℚ) ^ (e + 52) ≤ num / den := by
    simp only [scaleOf, scaled_lt_iff num (Nat.pos_of_ne_zero hden), hk]
    by_cases hfits : (num : ℚ) / den < 2 ^ (k - 53 + 53)
    · exact ⟨k - 53, by rw [if_pos hfits], hfits, by simpa [show k - 53 + 52 = k - 1 by ring] using hlow.le⟩
    · refine ⟨k - 53 + 1, by rw [if_neg hfits], ?_, ?_⟩
      · simpa [show k - 53 + 1 + 53 = k + 1 by ring] using hhigh
      · simpa [show k - 53 + 1 + 52 = k by ring] using hfits
  rw [hscale]
  rcases le_total (-1074) e with hle | hle
  · rw [max_eq_left hle]
    exact ⟨hle, hbelow, .inr hleast⟩
  · rw [max_eq_right hle]
    refine ⟨le_rfl, hbelow.trans_le ?_, .inl rfl⟩
    exact zpow_le_zpow_right₀ (by norm_num) (by omega)

/-- A smaller ratio has a smaller scale. -/
theorem scaleOf_le {num den : Nat} (hnum : num ≠ 0) (hden : den ≠ 0) {k : Int} (h : (num : ℚ) / den < 2 ^ k) :
    scaleOf num den ≤ max (k - 53) (-1074) := by
  obtain ⟨-, -, hscale | hfull⟩ := scaleOf_bounds hnum hden
  · omega
  · have hexponent := (zpow_lt_zpow_iff_right₀ one_lt_two).mp (hfull.trans_lt h)
    omega

/-! ## The number of a word -/

/-- The word is finite and without a sign, and this is its number. -/
def Denotes (x : Binary64) (q : ℚ) : Prop := ∃ m e, x.value = .finite false m e ∧ (m : ℚ) * 2 ^ e = q

theorem value_ofFields {field : Nat} (h : field < infinityField) :
    (ofFields false field).value =
      if field / twoTo 52 = 0 then .finite false field (-1074)
      else .finite false (twoTo 52 + field % twoTo 52) ((field / twoTo 52 : Nat) - 1075) := by
  rw [infinityField_eq] at h
  have h63 : twoTo 63 = 9223372036854775808 := by decide
  have h11 : twoTo 11 = 2048 := by decide
  have hword : (ofFields false field).bits.toNat = field := by
    show (0 + field) % 18446744073709551616 = field
    omega
  unfold value negative exponentField fractionField
  rw [hword, twoTo_52, h63, h11]
  have hexponent : field / 4503599627370496 % 2048 = field / 4503599627370496 := by omega
  have hsign : ¬ 9223372036854775808 ≤ field := by omega
  rw [hexponent, if_neg (by omega)]
  simp only [hsign, decide_false]
  split
  · rw [Nat.mod_eq_of_lt (by omega)]
  · rfl

/-- The word of a mantissa of at most 53 bits at an exponent. A mantissa of `2 ^ 53` carries into the exponent. -/
theorem denotes_ofFields {e : Int} {m : Nat} (hleast : -1074 ≤ e) (hm : m ≤ 2 ^ 53)
    (hfull : e = -1074 ∨ 2 ^ 52 ≤ m) (hfield : (e + 1074).toNat * twoTo 52 + m < infinityField) :
    Denotes (ofFields false ((e + 1074).toNat * twoTo 52 + m)) (m * 2 ^ e) := by
  have hvalue := value_ofFields hfield
  rw [twoTo_52] at hvalue ⊢
  rcases Nat.lt_or_ge m (2 ^ 52) with hlow | hhigh
  · obtain rfl : e = -1074 := by omega
    refine ⟨m, -1074, ?_, rfl⟩
    rw [hvalue, if_pos (by omega)]
    simp
  rcases Nat.lt_or_ge m (2 ^ 53) with hbelow | hcarry
  · refine ⟨m, e, ?_, rfl⟩
    rw [hvalue, if_neg (by omega)]
    exact congrArg₂ (Value.finite false) (by omega) (by omega)
  · obtain rfl : m = 2 ^ 53 := by omega
    refine ⟨2 ^ 52, e + 1, ?_, ?_⟩
    · rw [hvalue, if_neg (by omega)]
      exact congrArg₂ (Value.finite false) (by omega) (by omega)
    · rw [zpow_add₀ (by norm_num)]
      push_cast
      ring

theorem Denotes.isNaN_eq_false {x : Binary64} {q : ℚ} (h : Denotes x q) : x.isNaN = false := by
  obtain ⟨m, e, hx, -⟩ := h
  simp [isNaN, hx]

/-! ## The word of a ratio -/

theorem denotes_zero : Denotes (zero false) 0 := ⟨0, -1074, by decide, by simp⟩

/-- Rounding neither leaves 53 bits nor, above the smallest exponent, falls below them. -/
theorem mantissa_bounds {m : Nat} {e : Int} {r : ℚ} (hnear : |(m : ℚ) - r / 2 ^ e| ≤ 1 / 2)
    (hbelow : r < 2 ^ (e + 53)) (hlow : e = -1074 ∨ (2 : ℚ) ^ (e + 52) ≤ r) :
    m ≤ 2 ^ 53 ∧ (e = -1074 ∨ 2 ^ 52 ≤ m) := by
  have hunit : (0 : ℚ) < 2 ^ e := zpow_pos two_pos e
  have hclose : |(m : ℚ) - r / 2 ^ e| < 1 := hnear.trans_lt (by norm_num)
  constructor
  · refine le_of_near hclose ?_
    rw [div_le_iff₀' hunit, Nat.cast_pow, ← zpow_natCast, Nat.cast_ofNat, ← zpow_add₀ two_ne_zero]
    exact hbelow.le
  · refine hlow.imp_right fun hlow => ge_of_near hclose ?_
    rw [le_div_iff₀' hunit, Nat.cast_pow, ← zpow_natCast, Nat.cast_ofNat, ← zpow_add₀ two_ne_zero]
    exact hlow

/-- The word of a ratio below the largest powers of two: a multiple of the unit in the last place, at most half a unit
away from the ratio. -/
theorem denotes_ofRatio {num den : Nat} (hnum : num ≠ 0) (hden : den ≠ 0)
    (hsmall : (num : ℚ) / den < 2 ^ (1023 : Int)) :
    ∃ m : Nat, Denotes (ofRatio false num den) (m * 2 ^ scaleOf num den) ∧
      |(m : ℚ) - num / den / 2 ^ scaleOf num den| ≤ 1 / 2 := by
  obtain ⟨hleast, hbelow, hlow⟩ := scaleOf_bounds hnum hden
  have hnear := roundDiv_near (scaled num den (scaleOf num den)).1
    (scaled_den_pos num (Nat.pos_of_ne_zero hden) (scaleOf num den))
  rw [scaled_ratio] at hnear
  obtain ⟨hm, hfull⟩ := mantissa_bounds hnear hbelow hlow
  have hword : ofRatio false num den =
      let field := (scaleOf num den + 1074).toNat * twoTo 52 +
        roundDiv (scaled num den (scaleOf num den)).1 (scaled num den (scaleOf num den)).2
      if field < infinityField then ofFields false field else infinity false := if_neg hnum
  have hscale := scaleOf_le hnum hden hsmall
  refine ⟨_, ?_, hnear⟩
  rw [hword]
  generalize roundDiv (scaled num den (scaleOf num den)).1 (scaled num den (scaleOf num den)).2 = m at hm hfull ⊢
  generalize scaleOf num den = e at hleast hfull hscale ⊢
  have hfield : (e + 1074).toNat * twoTo 52 + m < infinityField := by
    rw [twoTo_52, infinityField_eq]
    omega
  simp only [if_pos hfield]
  exact denotes_ofFields hleast hm hfull hfield

/-- The number of the word of a ratio below `2 ^ k` is at most `2 ^ (k - 54)` away from the ratio. -/
theorem denotes_ofRatio_near {num den : Nat} (hden : den ≠ 0) {k : Int} (hlow : -1021 ≤ k) (hhigh : k ≤ 1023)
    (h : (num : ℚ) / den < 2 ^ k) :
    ∃ q, Denotes (ofRatio false num den) q ∧ |q - num / den| ≤ 2 ^ (k - 54) := by
  by_cases hnum : num = 0
  · subst hnum
    have hbound : (0 : ℚ) ≤ 2 ^ (k - 54) := by positivity
    exact ⟨0, denotes_zero, by simpa using hbound⟩
  obtain ⟨m, hdenotes, hnear⟩ := denotes_ofRatio hnum hden
    (h.trans_le (zpow_le_zpow_right₀ (by norm_num) hhigh))
  have hscale := scaleOf_le hnum hden h
  generalize scaleOf num den = e at *
  have hunit : (0 : ℚ) < 2 ^ e := zpow_pos two_pos e
  refine ⟨m * 2 ^ e, hdenotes, ?_⟩
  calc |(m : ℚ) * 2 ^ e - num / den| = |((m : ℚ) - num / den / 2 ^ e) * 2 ^ e| := by
        rw [sub_mul, div_mul_cancel₀ _ hunit.ne']
    _ = |(m : ℚ) - num / den / 2 ^ e| * 2 ^ e := by rw [abs_mul, abs_of_pos hunit]
    _ ≤ 1 / 2 * 2 ^ e := mul_le_mul_of_nonneg_right hnear hunit.le
    _ = 2 ^ (e - 1) := by rw [zpow_sub_one₀ (by norm_num)]; ring
    _ ≤ 2 ^ (k - 54) := zpow_le_zpow_right₀ (by norm_num) (by omega)

/-- A natural number of at most 53 bits has an exact word. -/
theorem denotes_ofNat {n : Nat} (h : n < 2 ^ 53) : Denotes (ofNat n) n := by
  by_cases hn : n = 0
  · subst hn
    exact_mod_cast denotes_zero
  have hcast : (n : ℚ) / (1 : Nat) < 2 ^ (53 : Int) := by
    push_cast
    rw [div_one]
    exact_mod_cast h
  obtain ⟨m, hdenotes, hnear⟩ := denotes_ofRatio hn one_ne_zero
    (hcast.trans_le (zpow_le_zpow_right₀ (by norm_num) (by norm_num)))
  have hscale := scaleOf_le hn one_ne_zero hcast
  unfold ofNat
  generalize scaleOf n 1 = e at *
  -- the number is a multiple of the unit, so half a unit is no distance
  obtain ⟨k, rfl⟩ : ∃ k : Nat, e = -k := ⟨(-e).toNat, by omega⟩
  have hmultiple : (n : ℚ) / (1 : Nat) / 2 ^ (-(k : Int)) = (n * 2 ^ k : Nat) := by
    push_cast
    rw [zpow_neg, zpow_natCast]
    field_simp
  rw [hmultiple] at hnear
  have hexact : m = n * 2 ^ k := eq_of_near (hnear.trans_lt (by norm_num))
  have hvalue : (m : ℚ) * 2 ^ (-(k : Int)) = n := by
    rw [hexact, zpow_neg, zpow_natCast]
    push_cast
    field_simp
  rwa [hvalue] at hdenotes

/-! ## Arithmetic -/

section Arithmetic

variable {x y : Binary64} {p q : ℚ}

theorem cast_inUnits (m : Nat) {e unit : Int} (h : unit ≤ e) :
    (inUnits false m e unit : ℚ) * 2 ^ unit = m * 2 ^ e := by
  have hcast : (inUnits false m e unit : ℚ) = m * (twoTo (e - unit).toNat : Nat) := by
    simp [inUnits]
  rw [hcast, cast_twoTo_toNat (by omega), mul_assoc, ← zpow_add₀ two_ne_zero]
  congr 2
  ring

/-- The order of words is that of their numbers. -/
theorem lt_iff (hx : Denotes x p) (hy : Denotes y q) : lt x y = true ↔ p < q := by
  obtain ⟨m, e, hx, rfl⟩ := hx
  obtain ⟨n, f, hy, rfl⟩ := hy
  rw [← cast_inUnits m (min_le_left e f), ← cast_inUnits n (min_le_right e f),
    mul_lt_mul_iff_left₀ (zpow_pos two_pos _), Int.cast_lt]
  simp [lt, hx, hy]

/-- A quotient of words is the word of the exact quotient. -/
theorem div_eq_ofRatio (hx : Denotes x p) (hy : Denotes y q) (hq : q ≠ 0) :
    ∃ num den : Nat, den ≠ 0 ∧ (num : ℚ) / den = p / q ∧ x / y = ofRatio false num den := by
  obtain ⟨m, e, hx, rfl⟩ := hx
  obtain ⟨n, f, hy, rfl⟩ := hy
  have hn : n ≠ 0 := by
    rintro rfl
    simp at hq
  have hword : x / y = if f ≤ e then ofRatio false (m * twoTo (e - f).toNat) n
      else ofRatio false m (n * twoTo (f - e).toNat) := by
    show div x y = _
    simp [div, hx, hy, hn]
  have hcast : (n : ℚ) ≠ 0 := by exact_mod_cast hn
  rw [hword]
  split
  · rename_i h
    refine ⟨_, _, hn, ?_, rfl⟩
    push_cast
    rw [cast_twoTo_toNat (by omega), zpow_sub₀ (by norm_num)]
    field_simp
  · rename_i h
    refine ⟨_, _, Nat.mul_ne_zero hn (twoTo_pos _).ne', ?_, rfl⟩
    push_cast
    rw [cast_twoTo_toNat (by omega), zpow_sub₀ (by norm_num)]
    field_simp

/-- The word of a mantissa and an exponent is that of a ratio. -/
theorem ofScaled_eq_ofRatio (m : Nat) (e : Int) :
    ∃ num den : Nat, den ≠ 0 ∧ (num : ℚ) / den = m * 2 ^ e ∧ ofScaled false m e = ofRatio false num den := by
  unfold ofScaled
  split
  · rename_i h
    refine ⟨_, _, one_ne_zero, ?_, rfl⟩
    push_cast
    rw [cast_twoTo_toNat h, div_one]
  · rename_i h
    refine ⟨_, _, (twoTo_pos _).ne', ?_, rfl⟩
    rw [cast_twoTo_toNat (by omega), zpow_neg, div_inv_eq_mul]

/-- A sum of words is the word of the exact sum. -/
theorem add_eq_ofRatio (hx : Denotes x p) (hy : Denotes y q) :
    ∃ num den : Nat, den ≠ 0 ∧ (num : ℚ) / den = p + q ∧ x + y = ofRatio false num den := by
  obtain ⟨m, e, hx, rfl⟩ := hx
  obtain ⟨n, f, hy, rfl⟩ := hy
  rw [← cast_inUnits m (min_le_left e f), ← cast_inUnits n (min_le_right e f), ← add_mul]
  obtain ⟨sum, hsum⟩ : ∃ sum : Nat, inUnits false m e (min e f) + inUnits false n f (min e f) = sum :=
    ⟨m * twoTo (e - min e f).toNat + n * twoTo (f - min e f).toNat, by simp [inUnits]⟩
  have hword : x + y = if sum = 0 then zero false else ofScaled false sum (min e f) := by
    have hsign : ¬ (sum : Int) < 0 := by omega
    show add x y = _
    simp [add, hx, hy, hsum, hsign]
  have hcast : (inUnits false m e (min e f) : ℚ) + inUnits false n f (min e f) = sum := by
    exact_mod_cast hsum
  rw [hword, hcast]
  split
  · rename_i h
    exact ⟨0, 1, one_ne_zero, by simp [h], rfl⟩
  · exact ofScaled_eq_ofRatio sum (min e f)

end Arithmetic

end ResilientClient.Binary64
