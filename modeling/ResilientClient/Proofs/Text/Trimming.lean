/-
What trimming leaves of a row: the part that neither begins nor ends with a blank and has only blanks around it
(`trimmed_eq_iff`). There is one such part of every row, whatever the blanks are, and nothing is left of a row
exactly if all of it is blank (`trimmed_eq_nil_iff`). The blanks of bytes are the white space of ASCII.
-/
import ResilientClient.Bytes
import Mathlib.Data.List.DropRight
import Mathlib.Data.List.TakeWhile

namespace ResilientClient

variable {α : Type}

/-- The part of a row that neither begins nor ends with a blank and has only blanks around it. -/
structure Trims (Blank : α → Prop) (row inner : List α) : Prop where
  around : ∃ front back, row = front ++ (inner ++ back) ∧ (∀ a ∈ front, Blank a) ∧ ∀ a ∈ back, Blank a
  first : ∀ a ∈ inner.head?, ¬ Blank a
  last : ∀ a ∈ inner.getLast?, ¬ Blank a

section Rows

variable {blank : α → Bool} {row inner : List α}

theorem Trims.sublist {Blank : α → Prop} (h : Trims Blank row inner) : inner.Sublist row := by
  obtain ⟨front, back, rfl, -, -⟩ := h.around
  exact (List.sublist_append_left inner back).trans (List.sublist_append_right front _)

/-- Blanks are dropped up to the first element that is none. -/
theorem dropWhile_blanks {front : List α} (hfront : ∀ a ∈ front, blank a = true) (rest : List α)
    (hrest : ∀ a ∈ rest.head?, ¬ blank a = true) : (front ++ rest).dropWhile blank = rest := by
  rw [List.dropWhile_append_of_pos hfront]
  cases rest with
  | nil => rfl
  | cons a rest => exact List.dropWhile_cons_of_neg (hrest a rfl)

theorem trims_trimmed (blank : α → Bool) (row : List α) : Trims (blank · = true) row (trimmed blank row) := by
  let rest := row.dropWhile blank
  have hrest : rest = rest.rdropWhile blank ++ rest.rtakeWhile blank := List.rdropWhile_append_rtakeWhile.symm
  refine ⟨⟨row.takeWhile blank, rest.rtakeWhile blank, ?_, fun a => List.mem_takeWhile_imp,
    fun a => List.mem_rtakeWhile_imp⟩, fun a ha => ?_, fun a ha => ?_⟩
  · calc
      row = row.takeWhile blank ++ rest := List.takeWhile_append_dropWhile.symm
      _ = row.takeWhile blank ++ (rest.rdropWhile blank ++ rest.rtakeWhile blank) := by rw [← hrest]
  · -- what is trimmed begins as the row does behind its first blanks
    have hhead : rest.head? = some a := by
      rw [hrest]
      exact List.mem_head?_append_of_mem_head? ha
    have hnot := List.head?_dropWhile_not blank row
    rw [hhead] at hnot
    simpa using hnot
  · obtain ⟨hne, rfl⟩ := List.mem_getLast?_eq_getLast ha
    exact List.rdropWhile_last_not blank rest hne

/-- There is only one part that has only blanks around it and neither begins nor ends with one. -/
theorem trimmed_eq_iff : trimmed blank row = inner ↔ Trims (blank · = true) row inner := by
  constructor
  · rintro rfl
    exact trims_trimmed blank row
  · rintro ⟨⟨front, back, rfl, hfront, hback⟩, hfirst, hlast⟩
    unfold trimmed
    cases inner with
    | nil =>
      have hall : ∀ a ∈ front ++ back, blank a = true := List.forall_mem_append.2 ⟨hfront, hback⟩
      rw [List.nil_append, List.dropWhile_eq_nil_iff.2 hall]
      rfl
    | cons a inner =>
      have hreverse : ∀ b ∈ (a :: inner).reverse.head?, ¬ blank b = true := by
        rwa [List.head?_reverse]
      rw [dropWhile_blanks hfront (a :: inner ++ back) hfirst, List.reverse_append,
        dropWhile_blanks (fun b hb => hback b (List.mem_reverse.1 hb)) _ hreverse, List.reverse_reverse]

/-- Nothing is left exactly if there is nothing but blanks. -/
theorem trimmed_eq_nil_iff : trimmed blank row = [] ↔ ∀ a ∈ row, blank a = true := by
  rw [trimmed_eq_iff]
  constructor
  · rintro ⟨⟨front, back, rfl, hfront, hback⟩, -, -⟩
    exact List.forall_mem_append.2 ⟨hfront, hback⟩
  · intro hall
    exact ⟨⟨row, [], by simp, hall, nofun⟩, nofun, nofun⟩

end Rows

/-! ## Bytes -/

namespace Bytes

/-- The white space of ASCII: space, tab, line feed, form feed and carriage return. -/
def White (b : UInt8) : Prop := b ∈ [0x20, 0x09, 0x0A, 0x0C, 0x0D]

theorem isBlank_iff (b : UInt8) : isBlank b = true ↔ White b := by
  simp [isBlank, White, or_assoc]

variable {bytes inner : Bytes}

theorem trim_eq_iff : trim bytes = inner ↔ Trims White bytes inner := by
  have hblank : (isBlank · = true) = White := funext fun b => propext (isBlank_iff b)
  rw [← hblank]
  exact trimmed_eq_iff

theorem trim_eq_nil_iff : trim bytes = [] ↔ ∀ b ∈ bytes, White b := by
  simp only [← isBlank_iff]
  exact trimmed_eq_nil_iff

end Bytes

end ResilientClient
