/-
Written spans of time are read back. A written span is a row of amounts, each a number of units that is not zero
(`items_eq`). A row of amounts is read as their sum as long as this fits (`readFrom_row`), and the amounts of a span
from years down to nanoseconds add up to it, so every span is read back from its text (`parse?_render`).
-/
import ResilientClient.Duration.Human
import ResilientClient.Proofs.Text.Written

namespace ResilientClient.Duration.Human

/-! ## Characters -/

theorem digitValue_digitChar : ∀ n < 10, n.digitChar.isDigit = true ∧ digitValue n.digitChar = n := by decide

theorem isDigit_iff {c : Char} : c.isDigit = true ↔ 48 ≤ c.toNat ∧ c.toNat ≤ 57 := by
  simp only [Char.isDigit, Bool.and_eq_true, decide_eq_true_eq, UInt32.le_iff_toNat_le, ge_iff_le]
  rfl

theorem isLetter_iff {c : Char} : isLetter c = true ↔
    (65 ≤ c.toNat ∧ c.toNat ≤ 90) ∨ (97 ≤ c.toNat ∧ c.toNat ≤ 122) ∨ c = 'µ' := by
  change (decide (65 ≤ c.val ∧ c.val ≤ 90) || (decide (97 ≤ c.val) && decide (c.val ≤ 122)) || c == 'µ') = true ↔ _
  simp only [Bool.or_eq_true, Bool.and_eq_true, decide_eq_true_eq, beq_iff_eq, or_assoc, UInt32.le_iff_toNat_le]
  rfl

theorem not_blank_of_le {c : Char} (hlow : 33 ≤ c.toNat) (hhigh : c.toNat ≤ 122) : Text.isBlank c = false := by
  simp [Text.isBlank]
  omega

/-- A letter of a unit neither goes on a number nor ends the unit. -/
theorem separate_of_isLetter {c : Char} (h : isLetter c = true) : c.isDigit = false ∧ Text.isBlank c = false := by
  have hdigit : c.isDigit = true → 48 ≤ c.toNat ∧ c.toNat ≤ 57 := isDigit_iff.1
  rcases isLetter_iff.1 h with hupper | hlower | rfl
  · exact ⟨by_contra fun hc => by have := hdigit (by simpa using hc); omega, not_blank_of_le (by omega) (by omega)⟩
  · exact ⟨by_contra fun hc => by have := hdigit (by simpa using hc); omega, not_blank_of_le (by omega) (by omega)⟩
  · decide

/-! ## Amounts -/

/-- A number of units, with a spelling of the unit. -/
structure Amount where
  count : Nat
  unit : Measure
  spelling : String

/-- The word is a spelling of the unit, in letters. -/
def Spells (word : String) (unit : Measure) : Prop :=
  Measure.parse? word = some unit ∧ ∀ c ∈ word.toList, isLetter c = true

instance (word : String) (unit : Measure) : Decidable (Spells word unit) :=
  decidable_of_iff (Measure.parse? word = some unit ∧ word.toList.all isLetter = true)
    (and_congr_right fun _ => List.all_eq_true)

namespace Amount

/-- The written form of an amount. -/
def text (a : Amount) : String := toString a.count ++ a.spelling

/-- The whole seconds that an amount adds. -/
def seconds (a : Amount) : Nat := a.count * a.unit.parts.1

/-- The nanoseconds that an amount adds. -/
def nanos (a : Amount) : Nat := a.count * a.unit.parts.2

/-- The unit is spelled as it is read. -/
def Spelled (a : Amount) : Prop := Spells a.spelling a.unit

end Amount

namespace Sum

/-- A sum with an amount more. -/
def plus (sum : Sum) (a : Amount) : Sum := ⟨sum.seconds + a.seconds, sum.nanos + a.nanos⟩

/-- The seconds fit into 64 bits, and the nanoseconds are less than a second. -/
def Fits (sum : Sum) : Prop := sum.seconds < twoTo 64 ∧ sum.nanos < 1000000000

theorem foldl_plus (sum : Sum) (row : List Amount) : row.foldl plus sum =
    ⟨sum.seconds + (row.map Amount.seconds).sum, sum.nanos + (row.map Amount.nanos).sum⟩ := by
  induction row generalizing sum with
  | nil => rfl
  | cons a row ih =>
    rw [List.foldl_cons, ih]
    simp only [plus, List.map_cons, List.sum_cons, Nat.add_assoc]

/-- What comes before a sum that fits has fitted as well. -/
theorem Fits.of_foldl {sum : Sum} {row : List Amount} (h : (row.foldl plus sum).Fits) : sum.Fits := by
  rw [foldl_plus] at h
  obtain ⟨hseconds, hnanos⟩ := h
  exact ⟨by dsimp only at hseconds; omega, by dsimp only at hnanos; omega⟩

theorem word?_eq {n : Nat} (h : n < twoTo 64) : word? n = some n := if_pos h

theorem lt_twoTo_of_lt {n : Nat} (h : n < 1000000000) : n < twoTo 64 := h.trans (by decide)

/-- As long as the sum fits, an amount is added without a carry. -/
theorem addUnits?_eq {sum : Sum} {a : Amount} (h : (sum.plus a).Fits) :
    sum.addUnits? a.count none a.unit = some (sum.plus a) := by
  obtain ⟨hseconds, hnanos⟩ := h
  simp only [plus, Amount.seconds, Amount.nanos] at hseconds hnanos ⊢
  simp only [addUnits?, add?]
  generalize a.count * a.unit.parts.1 = s at hseconds ⊢
  generalize a.count * a.unit.parts.2 = ns at hnanos ⊢
  have hcarry : ¬ 1000000000 < sum.nanos + ns := by omega
  have heven : sum.nanos + ns ≠ 1000000000 := by omega
  rw [word?_eq (by omega : s < twoTo 64), word?_eq (lt_twoTo_of_lt (by omega : ns < _))]
  simp only [Option.bind_eq_bind, Option.bind_some, word?_eq (lt_twoTo_of_lt hnanos), if_neg hcarry, Nat.add_zero]
  rw [word?_eq (by omega : s < twoTo 64)]
  simp only [Option.bind_some, word?_eq hseconds, if_neg heven]
  rfl

end Sum

theorem Amount.count_lt {sum : Sum} {a : Amount} (h : (sum.plus a).Fits) : a.count < twoTo 64 := by
  obtain ⟨hseconds, hnanos⟩ := h
  have hsecond : a.seconds < twoTo 64 := by simp only [Sum.plus] at hseconds; omega
  have hnano : a.nanos < twoTo 64 := Sum.lt_twoTo_of_lt (by simp only [Sum.plus] at hnanos; omega)
  have hunit : 0 < a.unit.parts.1 ∨ 0 < a.unit.parts.2 := by cases a.unit <;> decide
  rcases hunit with hunit | hunit
  · exact (Nat.le_mul_of_pos_right _ hunit).trans_lt hsecond
  · exact (Nat.le_mul_of_pos_right _ hunit).trans_lt hnano

/-! ## Reading -/

section Reading

variable {sum : Sum} {a : Amount} {n : Nat} (rest : List Char)

theorem readFrom_digits (hn : n < twoTo 64) :
    readFrom sum .before (Nat.toDigits 10 n ++ rest) = readFrom sum (.integer n) rest := by
  induction n using Nat.strongRecOn generalizing rest with
  | ind n ih =>
    by_cases hdigit : n < 10
    · obtain ⟨hchar, hvalue⟩ := digitValue_digitChar n hdigit
      rw [Nat.toDigits_of_lt_base hdigit, List.singleton_append, readFrom, if_pos hchar, hvalue]
    · obtain ⟨hchar, hvalue⟩ := digitValue_digitChar (n % 10) (Nat.mod_lt _ (by decide))
      rw [Nat.toDigits_of_base_le (by decide) (by omega), List.append_assoc, List.singleton_append,
        ih (n / 10) (by omega) _ (by omega), readFrom, if_pos hchar, hvalue, Nat.div_add_mod', Sum.word?_eq hn]
      rfl

theorem readFrom_letters {letters : List Char} (h : ∀ c ∈ letters, isLetter c = true) (f : Option Fraction)
    (spelled : List Char) :
    readFrom sum (.unit n f spelled) (letters ++ rest) = readFrom sum (.unit n f (letters.reverse ++ spelled)) rest := by
  induction letters generalizing spelled with
  | nil => rfl
  | cons c letters ih =>
    rw [List.cons_append, readFrom, if_pos (h c List.mem_cons_self), ih fun c hc => h c (List.mem_cons_of_mem _ hc)]
    simp

/-- The first letter behind a number begins the unit. -/
theorem readFrom_unit {letters : List Char} (h : ∀ c ∈ letters, isLetter c = true) (hne : letters ≠ []) :
    readFrom sum (.integer n) (letters ++ rest) = readFrom sum (.unit n none letters.reverse) rest := by
  cases letters with
  | nil => exact absurd rfl hne
  | cons c letters =>
    obtain ⟨hdigit, hblank⟩ := separate_of_isLetter (h c List.mem_cons_self)
    rw [List.cons_append, readFrom, if_neg (by simp [hdigit]), if_neg (by simp [hblank]),
      if_pos (h c List.mem_cons_self), readFrom_letters _ fun c hc => h c (List.mem_cons_of_mem _ hc)]
    simp

theorem Spells.ne_nil {word : String} {unit : Measure} (h : Spells word unit) : word.toList ≠ [] := by
  have hempty : Measure.parse? "" = none := by decide
  intro hnil
  obtain rfl : word = "" := String.toList_inj.1 hnil
  exact absurd (hempty.symm.trans h.1) nofun

theorem readFrom_amount (ha : a.Spelled) (hcount : a.count < twoTo 64) :
    readFrom sum .before (a.text.toList ++ rest) =
      readFrom sum (.unit a.count none a.spelling.toList.reverse) rest := by
  rw [Amount.text, Nat.toString_eq_ofList_toDigits, String.toList_append, String.toList_ofList, List.append_assoc,
    readFrom_digits _ hcount, readFrom_unit _ ha.2 ha.ne_nil]

theorem closeUnit_eq (ha : a.Spelled) (hfits : (sum.plus a).Fits) :
    closeUnit sum a.count none a.spelling.toList.reverse = some (sum.plus a) := by
  rw [closeUnit, List.reverse_reverse, String.ofList_toList, ha.1]
  exact Sum.addUnits?_eq hfits

end Reading

/-- A row of amounts is read as their sum. -/
theorem readFrom_row {row : List Amount} (hne : row ≠ []) (hspelled : ∀ a ∈ row, a.Spelled) {sum : Sum}
    (hfits : (row.foldl Sum.plus sum).Fits) :
    readFrom sum .before (Text.join " " (row.map Amount.text)).toList = some (row.foldl Sum.plus sum) := by
  induction row generalizing sum with
  | nil => exact absurd rfl hne
  | cons a row ih =>
    have ha := hspelled a List.mem_cons_self
    have hplus : (sum.plus a).Fits := Sum.Fits.of_foldl hfits
    have hread (rest : List Char) : readFrom sum .before (a.text.toList ++ rest) = _ :=
      readFrom_amount rest ha (Amount.count_lt hplus)
    cases row with
    | nil =>
      have hlast := hread []
      rw [List.append_nil] at hlast
      rw [List.map_singleton, Text.join_singleton, hlast, readFrom, closeUnit_eq ha hplus]
      rfl
    | cons next row =>
      have hrest := ih (List.cons_ne_nil _ _) (fun b hb => hspelled b (List.mem_cons_of_mem _ hb)) hfits
      rw [List.map_cons, List.map_cons, Text.join_cons_cons, ← List.map_cons, String.toList_append,
        String.toList_append, List.append_assoc, hread]
      change readFrom sum _ (' ' :: _) = _
      rw [readFrom, if_neg (by decide), if_neg (by decide), if_pos (by decide), closeUnit_eq ha hplus]
      exact hrest

/-! ## The amounts of a span -/

/-- The amount of a number of units, unless it is zero. -/
def amount (n : Nat) (unit : Measure) (spelling : String) : List Amount :=
  if n = 0 then [] else [⟨n, unit, spelling⟩]

/-- The spelling of a word for a number of units. -/
def numbered (n : Nat) (word : String) : String := if n = 1 then word else word ++ "s"

section Amount

variable {n : Nat} {unit : Measure} {word : String}

theorem map_text_amount : (amount n unit word).map Amount.text = short n word := by
  unfold amount short
  split <;> rfl

theorem short_numbered : short n (numbered n word) = plural n word := by
  unfold short numbered plural
  split
  · rfl
  · split
    · rename_i hone
      rw [hone]
      rfl
    · rw [String.append_assoc]

theorem sum_seconds_amount : ((amount n unit word).map Amount.seconds).sum = n * unit.parts.1 := by
  unfold amount
  split
  · simp_all
  · simp [Amount.seconds]

theorem sum_nanos_amount : ((amount n unit word).map Amount.nanos).sum = n * unit.parts.2 := by
  unfold amount
  split
  · simp_all
  · simp [Amount.nanos]

theorem spelled_of_mem_amount (hword : Spells word unit) {a : Amount} (h : a ∈ amount n unit word) : a.Spelled := by
  unfold amount at h
  split at h
  · exact absurd h List.not_mem_nil
  · obtain rfl := List.mem_singleton.1 h
    exact hword

theorem spells_numbered (hone : Spells word unit) (hmore : Spells (word ++ "s") unit) :
    Spells (numbered n word) unit := by
  unfold numbered
  split
  · exact hone
  · exact hmore

end Amount

/-- The amounts of a span that are not zero, from years down to nanoseconds. -/
def amounts (d : Duration) : List Amount :=
  let s := d.seconds
  let n := d.subsecond
  let years := s / 31557600
  let months := s % 31557600 / 2630016
  let days := s % 31557600 % 2630016 / 86400
  amount years .year (numbered years "year") ++ amount months .month (numbered months "month") ++
    amount days .day (numbered days "day") ++
    amount (s % 31557600 % 2630016 % 86400 / 3600) .hour "h" ++
    amount (s % 31557600 % 2630016 % 86400 % 3600 / 60) .minute "m" ++
    amount (s % 31557600 % 2630016 % 86400 % 60) .second "s" ++
    amount (n / 1000000) .millisecond "ms" ++ amount (n / 1000 % 1000) .microsecond "us" ++
    amount (n % 1000) .nanosecond "ns"

theorem items_eq (d : Duration) : items d = (amounts d).map Amount.text := by
  simp only [items, amounts, List.map_append, map_text_amount, short_numbered]

theorem spelled_of_mem_amounts {d : Duration} : ∀ a ∈ amounts d, a.Spelled := by
  simp only [amounts, List.forall_mem_append]
  refine ⟨⟨⟨⟨⟨⟨⟨⟨?_, ?_⟩, ?_⟩, ?_⟩, ?_⟩, ?_⟩, ?_⟩, ?_⟩, ?_⟩
  · exact fun _ => spelled_of_mem_amount (spells_numbered (by decide) (by decide))
  · exact fun _ => spelled_of_mem_amount (spells_numbered (by decide) (by decide))
  · exact fun _ => spelled_of_mem_amount (spells_numbered (by decide) (by decide))
  all_goals exact fun _ => spelled_of_mem_amount (by decide)

/-- The amounts of a span add up to it. -/
theorem foldl_amounts (d : Duration) : (amounts d).foldl Sum.plus ⟨0, 0⟩ = ⟨d.seconds, d.subsecond⟩ := by
  rw [Sum.foldl_plus]
  simp only [amounts, List.map_append, List.sum_append, sum_seconds_amount, sum_nanos_amount, Measure.parts,
    Measure.seconds, Sum.mk.injEq]
  have hsubsecond : d.subsecond < 1000000000 := Nat.mod_lt _ (by decide)
  constructor <;> omega

theorem fits_span (d : Duration) : Sum.Fits ⟨d.seconds, d.subsecond⟩ := by
  have hmax := d.le_max
  have hlimit : maxNanos = twoTo 64 * 1000000000 - 1 := rfl
  have hpositive : 0 < twoTo 64 := by decide
  have hseconds : d.seconds < twoTo 64 := by
    unfold Duration.seconds
    omega
  exact ⟨hseconds, Nat.mod_lt _ (by decide)⟩

theorem toDuration?_span (d : Duration) : Sum.toDuration? ⟨d.seconds, d.subsecond⟩ = some d := by
  have hwhole : d.seconds * 1000000000 + d.subsecond = d.nanos := Nat.div_add_mod' _ _
  rw [Sum.toDuration?, hwhole]
  exact dif_pos d.le_max

/-- A row of amounts begins with a digit. -/
theorem not_all_blank (a : Amount) (row : List Amount) :
    (Text.join " " ((a :: row).map Amount.text)).toList.all Text.isBlank = false := by
  obtain ⟨c, digits, hdigits⟩ := List.exists_cons_of_ne_nil (Nat.toDigits_ne_nil (n := a.count) (b := 10))
  have hdigit : c.isDigit = true :=
    Nat.isDigit_of_mem_toDigits (n := a.count) (by decide) (by decide) (hdigits ▸ List.mem_cons_self)
  have htext : a.text.toList = c :: (digits ++ a.spelling.toList) := by
    rw [Amount.text, Nat.toString_eq_ofList_toDigits, String.toList_append, String.toList_ofList, hdigits,
      List.cons_append]
  have hne : a.text ≠ "" := fun hempty => by simp [hempty] at htext
  have hhead := Text.head_join " " hne (row.map Amount.text)
  rw [htext, List.head?_cons] at hhead
  have hbounds := isDigit_iff.1 hdigit
  exact List.all_eq_false.2 ⟨c, List.mem_of_mem_head? hhead, by
    simp [not_blank_of_le (c := c) (by omega) (by omega)]⟩

/-- Every span is read back from its written form. -/
theorem parse?_render (d : Duration) : parse? (render d) = some d := by
  have hsum := foldl_amounts d
  have hspan := toDuration?_span d
  unfold render
  rw [items_eq]
  cases hamounts : amounts d with
  | nil =>
    -- without an amount the span is empty
    rw [hamounts] at hsum
    rw [← hsum] at hspan
    have hzero : parse? "0s" = Sum.toDuration? ⟨0, 0⟩ := by decide +kernel
    exact hzero.trans hspan
  | cons a row =>
    have hne : amounts d ≠ [] := by simp [hamounts]
    have hread := readFrom_row hne spelled_of_mem_amounts (hsum ▸ fits_span d)
    rw [hsum, hamounts] at hread
    have hdigit : Text.join " " ((a :: row).map Amount.text) ≠ "0" := fun hzero => by
      have hnothing : readFrom ⟨0, 0⟩ .before "0".toList = none := by decide
      rw [hzero, hnothing] at hread
      cases hread
    change parse? (Text.join " " ((a :: row).map Amount.text)) = some d
    rw [parse?, if_neg hdigit, not_all_blank, if_neg Bool.false_ne_true, hread, Option.bind_some, hspan]

end ResilientClient.Duration.Human
