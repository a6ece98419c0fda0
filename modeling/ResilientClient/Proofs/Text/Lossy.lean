/-
Lenient reading. A byte string falls into segments in exactly one way (`Splits.unique`): the encoding of a character
where one stands, and otherwise the longest beginning of one, or a single byte (`Unreadable`). Each segment is read as
one character (`Splits.decodeLossy_eq`), so a text is read as it is (`decodeLossy_ofText`), and what is read is larger
than the bytes by what U+FFFD has more than each unreadable segment (`Splits.utf8ByteSize_eq`).
-/
import ResilientClient.Text.Utf8
import Mathlib.Tactic

namespace ResilientClient.Text.Utf8

/-! ## Well-formed sequences -/

theorem isTail_iff {b : UInt8} : isTail b = true ↔ 0x80 ≤ b.toNat ∧ b.toNat ≤ 0xBF := by
  simp [isTail, UInt8.le_iff_toNat_le]

theorem isSecondOfThree_iff {a b : UInt8} : isSecondOfThree a b = true ↔
    (0xE0 ≤ a.toNat ∧ a.toNat ≤ 0xEF) ∧ (0x80 ≤ b.toNat ∧ b.toNat ≤ 0xBF) ∧
      (a.toNat = 0xE0 → 0xA0 ≤ b.toNat) ∧ (a.toNat = 0xED → b.toNat ≤ 0x9F) := by
  unfold isSecondOfThree
  split_ifs <;> simp_all [isTail_iff, UInt8.le_iff_toNat_le, ← UInt8.toNat_inj] <;> omega

theorem isSecondOfFour_iff {a b : UInt8} : isSecondOfFour a b = true ↔
    (0xF0 ≤ a.toNat ∧ a.toNat ≤ 0xF4) ∧ (0x80 ≤ b.toNat ∧ b.toNat ≤ 0xBF) ∧
      (a.toNat = 0xF0 → 0x90 ≤ b.toNat) ∧ (a.toNat = 0xF4 → b.toNat ≤ 0x8F) := by
  unfold isSecondOfFour
  split_ifs <;> simp_all [isTail_iff, UInt8.le_iff_toNat_le, ← UInt8.toNat_inj] <;> omega

/-- The bytes are a well-formed sequence: one to four bytes, in the ranges that fit the first. -/
def WellFormed : Bytes → Prop
  | [a] => a.toNat < 0x80
  | [a, b] => (0xC2 ≤ a.toNat ∧ a.toNat ≤ 0xDF) ∧ isTail b = true
  | [a, b, c] => isSecondOfThree a b = true ∧ isTail c = true
  | [a, b, c, d] => isSecondOfFour a b = true ∧ isTail c = true ∧ isTail d = true
  | _ => False

/-- The number of the character that a well-formed sequence encodes. -/
def codePoint : Bytes → Nat
  | [a] => a.toNat
  | [a, b] => a.toNat % 32 * 64 + tailBits b
  | [a, b, c] => a.toNat % 16 * 4096 + tailBits b * 64 + tailBits c
  | [a, b, c, d] => a.toNat % 8 * 262144 + tailBits b * 4096 + tailBits c * 64 + tailBits d
  | _ => 0

theorem char_range (c : Char) : c.toNat < 0xD800 ∨ (0xDFFF < c.toNat ∧ c.toNat < 0x110000) := c.valid

theorem toNat_ofNat {n : Nat} (h : n < 0xD800 ∨ (0xDFFF < n ∧ n < 0x110000)) : (Char.ofNat n).toNat = n := by
  have hvalid : n.isValidChar := h
  rw [Char.ofNat, dif_pos hvalid]
  rfl

theorem wellFormed_encode (c : Char) :
    WellFormed (String.utf8EncodeChar c) ∧ codePoint (String.utf8EncodeChar c) = c.toNat := by
  have hrange := char_range c
  have hval : c.val.toNat = c.toNat := rfl
  unfold String.utf8EncodeChar
  simp only [hval]
  generalize c.toNat = v at hrange
  split
  · simp [WellFormed, codePoint]
    omega
  · split
    · simp [WellFormed, codePoint, isTail_iff, tailBits]
      omega
    · split
      · simp [WellFormed, codePoint, isTail_iff, tailBits, isSecondOfThree_iff]
        omega
      · simp [WellFormed, codePoint, isTail_iff, tailBits, isSecondOfFour_iff]
        omega

theorem utf8EncodeChar_ofNat {n : Nat} (h : n < 0xD800 ∨ (0xDFFF < n ∧ n < 0x110000)) :
    String.utf8EncodeChar (Char.ofNat n) =
      if n ≤ 0x7F then [.ofNat n]
      else if n ≤ 0x7FF then [.ofNat (n / 64 % 0x20 + 0xC0), .ofNat (n % 0x40 + 0x80)]
      else if n ≤ 0xFFFF then
        [.ofNat (n / 4096 % 0x10 + 0xE0), .ofNat (n / 64 % 0x40 + 0x80), .ofNat (n % 0x40 + 0x80)]
      else
        [.ofNat (n / 262144 % 0x08 + 0xF0), .ofNat (n / 4096 % 0x40 + 0x80), .ofNat (n / 64 % 0x40 + 0x80),
          .ofNat (n % 0x40 + 0x80)] := by
  have hval : (Char.ofNat n).val.toNat = n := toNat_ofNat h
  unfold String.utf8EncodeChar
  rw [hval]

theorem encode_codePoint {bytes : Bytes} (h : WellFormed bytes) :
    String.utf8EncodeChar (Char.ofNat (codePoint bytes)) = bytes := by
  have hbyte {a : UInt8} {n : Nat} (hn : n = a.toNat) : UInt8.ofNat n = a := by rw [hn, UInt8.ofNat_toNat]
  match bytes, h with
  | [a], h =>
    simp only [WellFormed] at h
    simp only [codePoint]
    rw [utf8EncodeChar_ofNat (by omega), if_pos (by omega), hbyte rfl]
  | [a, b], h =>
    simp only [WellFormed, isTail_iff] at h
    simp only [codePoint, tailBits]
    rw [utf8EncodeChar_ofNat (by omega), if_neg (by omega), if_pos (by omega), hbyte (a := a) (by omega),
      hbyte (a := b) (by omega)]
  | [a, b, c], h =>
    simp only [WellFormed, isTail_iff, isSecondOfThree_iff] at h
    simp only [codePoint, tailBits]
    rw [utf8EncodeChar_ofNat (by omega), if_neg (by omega), if_neg (by omega), if_pos (by omega),
      hbyte (a := a) (by omega), hbyte (a := b) (by omega), hbyte (a := c) (by omega)]
  | [a, b, c, d], h =>
    simp only [WellFormed, isTail_iff, isSecondOfFour_iff] at h
    simp only [codePoint, tailBits]
    rw [utf8EncodeChar_ofNat (by omega), if_neg (by omega), if_neg (by omega), if_neg (by omega),
      hbyte (a := a) (by omega), hbyte (a := b) (by omega), hbyte (a := c) (by omega), hbyte (a := d) (by omega)]

/-- The well-formed sequences are the encodings of the characters. -/
theorem wellFormed_iff {bytes : Bytes} : WellFormed bytes ↔ ∃ c, String.utf8EncodeChar c = bytes := by
  constructor
  · intro h
    exact ⟨_, encode_codePoint h⟩
  · rintro ⟨c, rfl⟩
    exact (wellFormed_encode c).1

theorem encode_injective {c c' : Char} (h : String.utf8EncodeChar c = String.utf8EncodeChar c') : c = c' := by
  have hpoint : c.toNat = c'.toNat := by rw [← (wellFormed_encode c).2, h, (wellFormed_encode c').2]
  exact Char.toNat_inj.1 hpoint

/-- The first byte of a well-formed sequence says how many more there are. -/
theorem WellFormed.length_tail {first : UInt8} {tail : Bytes} (h : WellFormed (first :: tail)) :
    tail.length = if first.toNat < 0x80 then 0 else if first.toNat < 0xE0 then 1 else if first.toNat < 0xF0 then 2
      else 3 := by
  match tail, h with
  | [], h =>
    simp only [WellFormed] at h
    rw [if_pos h, List.length_nil]
  | [b], h =>
    simp only [WellFormed] at h
    rw [if_neg (by omega), if_pos (by omega), List.length_singleton]
  | [b, c], h =>
    simp only [WellFormed, isSecondOfThree_iff] at h
    rw [if_neg (by omega), if_neg (by omega), if_pos (by omega)]
    rfl
  | [b, c, d], h =>
    simp only [WellFormed, isSecondOfFour_iff] at h
    rw [if_neg (by omega), if_neg (by omega), if_neg (by omega)]
    rfl

/-- No well-formed sequence begins another one. -/
theorem WellFormed.eq_nil_of_append {bytes more : Bytes} (h : WellFormed bytes) (hmore : WellFormed (bytes ++ more)) :
    more = [] := by
  cases bytes with
  | nil => exact h.elim
  | cons first tail =>
    have hlength : tail.length = (tail ++ more).length := h.length_tail.trans (WellFormed.length_tail hmore).symm
    rw [List.length_append] at hlength
    exact List.eq_nil_of_length_eq_zero (by omega)

theorem encode_eq_of_begins {c c' : Char} (h : String.utf8EncodeChar c <+: String.utf8EncodeChar c') : c = c' := by
  obtain ⟨more, hmore⟩ := h
  have hform := (wellFormed_encode c').1
  rw [← hmore] at hform
  rw [(wellFormed_encode c).1.eq_nil_of_append hform, List.append_nil] at hmore
  exact encode_injective hmore

theorem encode_append_inj {c c' : Char} {rest rest' : Bytes}
    (h : String.utf8EncodeChar c ++ rest = String.utf8EncodeChar c' ++ rest') : c = c' ∧ rest = rest' := by
  have hchar : c = c' := by
    rcases List.prefix_or_prefix_of_prefix ⟨rest, rfl⟩ ⟨rest', h.symm⟩ with hfront | hfront
    · exact encode_eq_of_begins hfront
    · exact (encode_eq_of_begins hfront).symm
  subst hchar
  exact ⟨rfl, List.append_cancel_left h⟩

/-! ## Beginnings of characters -/

/-- The bytes begin the encoding of a character. -/
def Begins (bytes : Bytes) : Prop := ∃ c, bytes <+: String.utf8EncodeChar c

theorem begins_iff {bytes : Bytes} : Begins bytes ↔ ∃ more, WellFormed (bytes ++ more) := by
  simp only [wellFormed_iff]
  constructor
  · rintro ⟨c, more, hmore⟩
    exact ⟨more, c, hmore.symm⟩
  · rintro ⟨more, c, hmore⟩
    exact ⟨c, more, hmore.symm⟩

theorem Begins.shorten {bytes longer : Bytes} (h : Begins longer) (hfront : bytes <+: longer) : Begins bytes := by
  obtain ⟨c, hc⟩ := h
  exact ⟨c, hfront.trans hc⟩

theorem Begins.first {a : UInt8} (h : Begins [a]) : a.toNat < 0x80 ∨ (0xC2 ≤ a.toNat ∧ a.toNat ≤ 0xF4) := by
  obtain ⟨more, h⟩ := begins_iff.1 h
  match more, h with
  | [], h => exact .inl h
  | [b], h =>
    have hfirst := h.1
    exact .inr (by omega)
  | [b, c], h =>
    have hfirst := (isSecondOfThree_iff.1 h.1).1
    exact .inr (by omega)
  | [b, c, d], h =>
    have hfirst := (isSecondOfFour_iff.1 h.1).1
    exact .inr (by omega)

theorem begins_two_iff {a b : UInt8} : Begins [a, b] ↔
    ((0xC2 ≤ a.toNat ∧ a.toNat ≤ 0xDF) ∧ isTail b = true) ∨ isSecondOfThree a b = true ∨
      isSecondOfFour a b = true := by
  rw [begins_iff]
  constructor
  · rintro ⟨more, h⟩
    match more, h with
    | [], h => exact .inl h
    | [c], h => exact .inr (.inl h.1)
    | [c, d], h => exact .inr (.inr h.1)
  · rintro (h | h | h)
    · exact ⟨[], h⟩
    · exact ⟨[0x80], h, rfl⟩
    · exact ⟨[0x80, 0x80], h, rfl, rfl⟩

theorem begins_three_iff {a b c : UInt8} : Begins [a, b, c] ↔
    (isSecondOfThree a b = true ∨ isSecondOfFour a b = true) ∧ isTail c = true := by
  rw [begins_iff]
  constructor
  · rintro ⟨more, h⟩
    match more, h with
    | [], h => exact ⟨.inl h.1, h.2⟩
    | [d], h => exact ⟨.inr h.1, h.2.1⟩
  · rintro ⟨h | h, hc⟩
    · exact ⟨[], h, hc⟩
    · exact ⟨[0x80], h, hc, rfl⟩

theorem begins_four_iff {a b c d : UInt8} : Begins [a, b, c, d] ↔
    isSecondOfFour a b = true ∧ isTail c = true ∧ isTail d = true := by
  rw [begins_iff]
  constructor
  · rintro ⟨more, h⟩
    match more, h with
    | [], h => exact h
  · intro h
    exact ⟨[], h⟩

/-! ## Unreadable segments -/

/-- The bytes in front of `rest` that are read as one although no character stands there: the longest beginning of
a character that there is, or a single byte. -/
structure Unreadable (part rest : Bytes) : Prop where
  noChar : ∀ c, ¬ String.utf8EncodeChar c <+: part ++ rest
  nonempty : part ≠ []
  begins : Begins part ∨ part.length = 1
  longest : ∀ longer, longer <+: part ++ rest → Begins longer → longer.length ≤ part.length

/-- What begins a character does not do so with one byte more. -/
def Stuck (part rest : Bytes) : Prop := ∀ next ∈ rest.head?, ¬ Begins (part ++ [next])

theorem stuck_nil (part : Bytes) : Stuck part [] := nofun

theorem stuck_cons_iff {part rest : Bytes} {next : UInt8} :
    Stuck part (next :: rest) ↔ ¬ Begins (part ++ [next]) := by
  simp [Stuck]

section Unreadable

variable {part rest : Bytes} {a b c : UInt8}

theorem stuck_of_not_begins (h : ¬ Begins part) : Stuck part rest := fun _ _ hnext =>
  h (hnext.shorten (List.prefix_append _ _))

theorem Stuck.length_le {longer : Bytes} (h : Stuck part rest) (hfront : longer <+: part ++ rest)
    (hbegins : Begins longer) : longer.length ≤ part.length := by
  by_contra hlonger
  cases rest with
  | nil =>
    rw [List.append_nil] at hfront
    exact hlonger hfront.length_le
  | cons next rest =>
    have hnext : part ++ [next] <+: part ++ next :: rest := ⟨rest, List.append_cons .. |>.symm⟩
    refine stuck_cons_iff.1 h (hbegins.shorten (List.prefix_of_prefix_length_le hnext hfront ?_))
    rw [List.length_append, List.length_singleton]
    omega

theorem Stuck.unreadable (h : Stuck part rest) (hnonempty : part ≠ []) (hbegins : Begins part ∨ part.length = 1)
    (hnone : ∀ sound ∈ part.inits, ¬ WellFormed sound) : Unreadable part rest := by
  refine ⟨fun c hc => hnone _ ?_ (wellFormed_encode c).1, hnonempty, hbegins, fun _ => h.length_le⟩
  have hlength := h.length_le hc ⟨c, List.prefix_rfl⟩
  exact (List.mem_inits _ _).2 (List.prefix_of_prefix_length_le hc (List.prefix_append _ _) hlength)

theorem unreadable_one (ha : 0x80 ≤ a.toNat) (h : Stuck [a] rest) : Unreadable [a] rest :=
  h.unreadable (List.cons_ne_nil _ _) (.inr rfl) (by simpa [WellFormed] using ha)

theorem unreadable_two (hab : isSecondOfThree a b = true ∨ isSecondOfFour a b = true) (h : Stuck [a, b] rest) :
    Unreadable [a, b] rest := by
  refine h.unreadable (List.cons_ne_nil _ _) (.inl (begins_two_iff.2 (.inr hab))) ?_
  simp only [isSecondOfThree_iff, isSecondOfFour_iff] at hab
  simp [WellFormed]
  omega

theorem unreadable_three (hab : isSecondOfFour a b = true) (hc : isTail c = true) (h : Stuck [a, b, c] rest) :
    Unreadable [a, b, c] rest := by
  refine h.unreadable (List.cons_ne_nil _ _) (.inl (begins_three_iff.2 ⟨.inr hab, hc⟩)) ?_
  simp only [isSecondOfFour_iff] at hab
  simp [WellFormed, isSecondOfThree_iff]
  omega

end Unreadable

/-! ## Segments -/

/-- A segment of a byte string: a character, or bytes that are none. -/
inductive Segment where
  | char (c : Char)
  | broken (bytes : Bytes)

namespace Segment

/-- What a segment is read as. -/
def read : Segment → Char
  | char c => c
  | broken _ => replacement

/-- How much larger a segment gets by being read. -/
def surplus : Segment → Nat
  | char _ => 0
  | broken bytes => replacement.utf8Size - bytes.length

end Segment

/-- A byte string is made of these segments. -/
inductive Splits : Bytes → List Segment → Prop
  | nil : Splits [] []
  | char (c : Char) {rest : Bytes} {segments : List Segment} : Splits rest segments →
      Splits (String.utf8EncodeChar c ++ rest) (.char c :: segments)
  | broken {part rest : Bytes} {segments : List Segment} : Unreadable part rest → Splits rest segments →
      Splits (part ++ rest) (.broken part :: segments)

section Splits

variable {bytes rest part : Bytes} {segments : List Segment}

theorem exists_of_wellFormed (bytes : Bytes) (h : WellFormed bytes)
    (hrest : ∃ segments, Splits rest segments ∧ decodeLossy rest = segments.map Segment.read) :
    ∃ segments, Splits (bytes ++ rest) segments ∧
      Char.ofNat (codePoint bytes) :: decodeLossy rest = segments.map Segment.read := by
  obtain ⟨segments, hsplits, hread⟩ := hrest
  have hchar := hsplits.char (Char.ofNat (codePoint bytes))
  rw [encode_codePoint h] at hchar
  exact ⟨_, hchar, by rw [hread]; rfl⟩

theorem exists_of_unreadable (h : Unreadable part rest)
    (hrest : ∃ segments, Splits rest segments ∧ decodeLossy rest = segments.map Segment.read) :
    ∃ segments, Splits (part ++ rest) segments ∧ replacement :: decodeLossy rest = segments.map Segment.read := by
  obtain ⟨segments, hsplits, hread⟩ := hrest
  exact ⟨.broken part :: segments, hsplits.broken h, by rw [hread]; rfl⟩

/-- Each byte string falls into segments, and it is read as they are. -/
theorem exists_splits (bytes : Bytes) :
    ∃ segments, Splits bytes segments ∧ decodeLossy bytes = segments.map Segment.read := by
  have hnothing : ∃ segments, Splits [] segments ∧ decodeLossy [] = segments.map Segment.read := ⟨[], .nil, rfl⟩
  have hlead {low high a : UInt8} (h : (decide (low ≤ a) && decide (a ≤ high)) = true) :
      low.toNat ≤ a.toNat ∧ a.toNat ≤ high.toNat := by
    simpa [UInt8.le_iff_toNat_le] using h
  have hnoLead {low high a : UInt8} (h : ¬ (decide (low ≤ a) && decide (a ≤ high)) = true) :
      ¬ (low.toNat ≤ a.toNat ∧ a.toNat ≤ high.toNat) := by
    simpa [UInt8.le_iff_toNat_le] using h
  have hhigh {a : UInt8} (h : ¬ a < 0x80) : 0x80 ≤ a.toNat := by
    simpa [UInt8.le_iff_toNat_le] using h
  -- A sequence is complete, or it breaks off at the end of the bytes or in front of one that does not fit.
  fun_induction decodeLossy bytes with
  | case1 => exact hnothing
  | case2 a rest ha ih => exact exists_of_wellFormed [a] (UInt8.lt_iff_toNat_lt.1 ha) ih
  | case3 a _ ha b rest hb ih => exact exists_of_wellFormed [a, b] ⟨hlead ha, hb⟩ ih
  | case4 a ha htwo b rest hb ih =>
    have hfirst : 0xC2 ≤ a.toNat ∧ a.toNat ≤ 0xDF := hlead htwo
    refine exists_of_unreadable (unreadable_one (hhigh ha) (stuck_cons_iff.2 ?_)) ih
    rw [List.singleton_append, begins_two_iff, isSecondOfThree_iff, isSecondOfFour_iff]
    rintro (⟨-, htail⟩ | hthree | hfour)
    · exact hb htail
    · omega
    · omega
  | case5 a ha _ => exact exists_of_unreadable (unreadable_one (hhigh ha) (stuck_nil _)) hnothing
  | case6 a _ _ _ b hb c rest hc ih => exact exists_of_wellFormed [a, b, c] ⟨hb, hc⟩ ih
  | case7 a _ _ _ b hb c rest hc ih =>
    refine exists_of_unreadable (unreadable_two (.inl hb) (stuck_cons_iff.2 ?_)) ih
    exact fun h => hc (begins_three_iff.1 h).2
  | case8 a _ _ _ b hb => exact exists_of_unreadable (unreadable_two (.inl hb) (stuck_nil _)) hnothing
  | case9 a ha _ hthree b rest hb ih =>
    have hfirst : 0xE0 ≤ a.toNat ∧ a.toNat ≤ 0xEF := hlead hthree
    refine exists_of_unreadable (unreadable_one (hhigh ha) (stuck_cons_iff.2 ?_)) ih
    rw [List.singleton_append, begins_two_iff, isSecondOfFour_iff]
    rintro (htwo | hsecond | hfour)
    · omega
    · exact hb hsecond
    · omega
  | case10 a ha => exact exists_of_unreadable (unreadable_one (hhigh ha) (stuck_nil _)) hnothing
  | case11 a _ _ _ _ b hb c hc d rest hd ih => exact exists_of_wellFormed [a, b, c, d] ⟨hb, hc, hd⟩ ih
  | case12 a _ _ _ _ b hb c hc d rest hd ih =>
    refine exists_of_unreadable (unreadable_three hb hc (stuck_cons_iff.2 ?_)) ih
    exact fun h => hd (begins_four_iff.1 h).2.2
  | case13 a _ _ _ _ b hb c hc => exact exists_of_unreadable (unreadable_three hb hc (stuck_nil _)) hnothing
  | case14 a _ _ _ _ b hb c rest hc ih =>
    refine exists_of_unreadable (unreadable_two (.inr hb) (stuck_cons_iff.2 ?_)) ih
    exact fun h => hc (begins_three_iff.1 h).2
  | case15 a _ _ _ _ b hb => exact exists_of_unreadable (unreadable_two (.inr hb) (stuck_nil _)) hnothing
  | case16 a ha _ _ hfour b rest hb ih =>
    have hfirst : 0xF0 ≤ a.toNat ∧ a.toNat ≤ 0xF4 := hlead hfour
    refine exists_of_unreadable (unreadable_one (hhigh ha) (stuck_cons_iff.2 ?_)) ih
    rw [List.singleton_append, begins_two_iff, isSecondOfThree_iff]
    rintro (htwo | hthree | hsecond)
    · omega
    · omega
    · exact hb hsecond
  | case17 a ha => exact exists_of_unreadable (unreadable_one (hhigh ha) (stuck_nil _)) hnothing
  | case18 a rest ha htwo hthree hfour ih =>
    have hnotTwo : ¬ (0xC2 ≤ a.toNat ∧ a.toNat ≤ 0xDF) := hnoLead htwo
    have hnotThree : ¬ (0xE0 ≤ a.toNat ∧ a.toNat ≤ 0xEF) := hnoLead hthree
    have hnotFour : ¬ (0xF0 ≤ a.toNat ∧ a.toNat ≤ 0xF4) := hnoLead hfour
    refine exists_of_unreadable (unreadable_one (hhigh ha) (stuck_of_not_begins fun h => ?_)) ih
    have hfirst := h.first
    have hbyte := hhigh ha
    omega

theorem Unreadable.append_inj {part part' rest rest' : Bytes} (h : Unreadable part rest) (h' : Unreadable part' rest')
    (hwhole : part ++ rest = part' ++ rest') : part = part' ∧ rest = rest' := by
  have hle {one other behind behind' : Bytes} (hone : Unreadable one behind) (hother : Unreadable other behind')
      (hsame : one ++ behind = other ++ behind') : one.length ≤ other.length := by
    rcases hone.begins with hbegins | hlength
    · exact hother.longest one (hsame ▸ List.prefix_append _ _) hbegins
    · rw [hlength]
      exact List.length_pos_of_ne_nil hother.nonempty
  exact List.append_inj hwhole (le_antisymm (hle h h' hwhole) (hle h' h hwhole.symm))

theorem Splits.eq_nil (h : Splits [] segments) : segments = [] := by
  generalize hnothing : ([] : Bytes) = nothing at h
  cases h with
  | nil => rfl
  | char c _ => exact absurd (List.append_eq_nil_iff.1 hnothing.symm).1 String.utf8EncodeChar_ne_nil
  | broken hpart _ => exact absurd (List.append_eq_nil_iff.1 hnothing.symm).1 hpart.nonempty

theorem Splits.of_char {c : Char} (h : Splits (String.utf8EncodeChar c ++ rest) segments) :
    ∃ behind, segments = .char c :: behind ∧ Splits rest behind := by
  generalize hwhole : String.utf8EncodeChar c ++ rest = whole at h
  cases h with
  | nil => exact absurd (List.append_eq_nil_iff.1 hwhole).1 String.utf8EncodeChar_ne_nil
  | char c' hrest =>
    obtain ⟨rfl, rfl⟩ := encode_append_inj hwhole
    exact ⟨_, rfl, hrest⟩
  | broken hpart _ => exact absurd ⟨_, hwhole⟩ (hpart.noChar c)

theorem Splits.of_broken (hpart : Unreadable part rest) (h : Splits (part ++ rest) segments) :
    ∃ behind, segments = .broken part :: behind ∧ Splits rest behind := by
  generalize hwhole : part ++ rest = whole at h
  cases h with
  | nil => exact absurd (List.append_eq_nil_iff.1 hwhole).1 hpart.nonempty
  | char c _ => exact absurd ⟨_, hwhole.symm⟩ (hpart.noChar c)
  | broken hpart' hrest =>
    obtain ⟨rfl, rfl⟩ := hpart.append_inj hpart' hwhole
    exact ⟨_, rfl, hrest⟩

/-- A byte string falls into segments in one way only. -/
theorem Splits.unique {segments' : List Segment} (h : Splits bytes segments) (h' : Splits bytes segments') :
    segments = segments' := by
  induction h generalizing segments' with
  | nil => exact h'.eq_nil.symm
  | char c _ ih =>
    obtain ⟨behind, rfl, hrest⟩ := h'.of_char
    rw [ih hrest]
  | broken hpart _ ih =>
    obtain ⟨behind, rfl, hrest⟩ := Splits.of_broken hpart h'
    rw [ih hrest]

/-- Each segment is read as one character. -/
theorem Splits.decodeLossy_eq (h : Splits bytes segments) : decodeLossy bytes = segments.map Segment.read := by
  obtain ⟨segments', h', hread⟩ := exists_splits bytes
  rw [h.unique h', hread]

end Splits

/-! ## The size of what is read -/

theorem splits_encode (chars : List Char) :
    Splits (chars.flatMap String.utf8EncodeChar) (chars.map Segment.char) := by
  induction chars with
  | nil => exact .nil
  | cons c chars ih => exact .char c ih

/-- A text is read as it is. -/
theorem decodeLossy_ofText (text : String) : decodeLossy (Bytes.ofText text) = text.toList := by
  rw [Bytes.ofText, (splits_encode text.toList).decodeLossy_eq, List.map_map]
  exact List.map_id _

/-- A segment without a character is never larger than the character that it is read as. -/
theorem Unreadable.length_le {part rest : Bytes} (h : Unreadable part rest) : part.length ≤ replacement.utf8Size := by
  rcases h.begins with ⟨c, hfront⟩ | hlength
  · have hne : part.length ≠ (String.utf8EncodeChar c).length := fun hlength =>
      h.noChar c (hfront.eq_of_length hlength ▸ List.prefix_append _ _)
    have hle := hfront.length_le
    have hsize := c.utf8Size_le_four
    rw [String.length_utf8EncodeChar] at hne hle
    have hthree : replacement.utf8Size = 3 := rfl
    omega
  · rw [hlength]
    exact replacement.utf8Size_pos

/-- How much larger the segments get by being read. -/
def surplus (segments : List Segment) : Nat := (segments.map Segment.surplus).sum

theorem utf8ByteSize_ofList_cons (c : Char) (chars : List Char) :
    (String.ofList (c :: chars)).utf8ByteSize = c.utf8Size + (String.ofList chars).utf8ByteSize := by
  rw [String.ofList_cons, String.utf8ByteSize_append, String.utf8ByteSize_singleton]

/-- What is read is larger than the bytes by the surplus of the segments. -/
theorem Splits.utf8ByteSize_eq {bytes : Bytes} {segments : List Segment} (h : Splits bytes segments) :
    (String.ofList (segments.map Segment.read)).utf8ByteSize = bytes.length + surplus segments := by
  induction h with
  | nil => rfl
  | char c _ ih =>
    rw [List.map_cons, utf8ByteSize_ofList_cons, ih, List.length_append, String.length_utf8EncodeChar]
    simp [surplus, Segment.surplus, Segment.read, Nat.add_assoc]
  | broken hpart _ ih =>
    have hle := hpart.length_le
    rw [List.map_cons, utf8ByteSize_ofList_cons, ih, List.length_append]
    simp only [surplus, Segment.surplus, Segment.read, List.map_cons, List.sum_cons]
    omega

/-- Each byte is read as three bytes at most. -/
theorem Splits.surplus_le {bytes : Bytes} {segments : List Segment} (h : Splits bytes segments) :
    surplus segments ≤ 2 * bytes.length := by
  induction h with
  | nil => exact Nat.le_refl _
  | char c _ ih =>
    rw [List.length_append]
    simp only [surplus, Segment.surplus, List.map_cons, List.sum_cons] at ih ⊢
    omega
  | broken hpart _ ih =>
    have hpos := List.length_pos_of_ne_nil hpart.nonempty
    have hthree : replacement.utf8Size = 3 := rfl
    rw [List.length_append]
    simp only [surplus, Segment.surplus, List.map_cons, List.sum_cons] at ih ⊢
    omega

end ResilientClient.Text.Utf8
