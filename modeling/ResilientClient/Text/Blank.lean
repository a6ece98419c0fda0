/-
Blanks: the trimming of rows of any kind, and the characters with the Unicode property White_Space.
-/
namespace ResilientClient

/-- A row without the blanks at either end. -/
def trimmed {α : Type} (blank : α → Bool) (row : List α) : List α :=
  ((row.dropWhile blank).reverse.dropWhile blank).reverse

namespace Text

/-- The characters with the Unicode property White_Space. -/
def isBlank (c : Char) : Bool :=
  let n := c.toNat
  (0x09 ≤ n && n ≤ 0x0D) || n == 0x20 || n == 0x85 || n == 0xA0 || n == 0x1680 ||
    (0x2000 ≤ n && n ≤ 0x200A) || n == 0x2028 || n == 0x2029 || n == 0x202F || n == 0x205F ||
    n == 0x3000

/-- The characters without the white space at either end. -/
def trim (text : List Char) : List Char := trimmed isBlank text

end Text

end ResilientClient
