/-
Spans of time in whole nanoseconds, from zero up to the longest span of 64-bit seconds, and their
short text for messages.
-/
import ResilientClient.Power

namespace ResilientClient

/-- The longest span, in nanoseconds: `2^64 − 1` seconds and `999 999 999` nanoseconds. -/
def Duration.maxNanos : Nat := twoTo 64 * 1000000000 - 1

/-- A span of time. -/
structure Duration where
  /-- Its length in nanoseconds. -/
  nanos : Nat
  le_max : nanos ≤ Duration.maxNanos
deriving DecidableEq, Repr

namespace Duration

/-- The span of that many nanoseconds, if it is not too long. -/
def ofNanos? (n : Nat) : Option Duration := if h : n ≤ maxNanos then some ⟨n, h⟩ else none

/-- The span of that many nanoseconds, or the longest span. -/
def ofNanos (n : Nat) : Duration := ⟨min n maxNanos, Nat.min_le_right ..⟩

/-- The span of that many seconds, or the longest span. -/
def ofSeconds (n : Nat) : Duration := ofNanos (n * 1000000000)

/-- The span of that many milliseconds, or the longest span. -/
def ofMillis (n : Nat) : Duration := ofNanos (n * 1000000)

/-- The empty span. -/
def zero : Duration := ⟨0, Nat.zero_le _⟩

instance : Inhabited Duration := ⟨zero⟩

/-- The whole seconds of a span. -/
def seconds (d : Duration) : Nat := d.nanos / 1000000000

/-- The nanoseconds of a span beyond its whole seconds. -/
def subsecond (d : Duration) : Nat := d.nanos % 1000000000

/-- The whole milliseconds of a span. -/
def millis (d : Duration) : Nat := d.nanos / 1000000

instance : LE Duration := ⟨fun a b => a.nanos ≤ b.nanos⟩
instance : LT Duration := ⟨fun a b => a.nanos < b.nanos⟩
instance (a b : Duration) : Decidable (a ≤ b) := Nat.decLe a.nanos b.nanos
instance (a b : Duration) : Decidable (a < b) := Nat.decLt a.nanos b.nanos

/-- The shorter of two spans. -/
def shorter (a b : Duration) : Duration := if a ≤ b then a else b

/-! ## Short text -/

/-- The digits of a fraction of `width` places without its trailing zeros, after a point, or
nothing when the fraction is zero. -/
def fractionText (fraction width : Nat) : String :=
  if fraction = 0 then ""
  else
    let digits := Nat.toDigits 10 fraction
    let padded := List.replicate (width - digits.length) '0' ++ digits
    "." ++ String.ofList ((padded.reverse.dropWhile (· == '0')).reverse)

/-- A span in the largest of seconds, milliseconds, microseconds and nanoseconds of which it holds
at least one, with the exact fraction. -/
def text (d : Duration) : String :=
  if 1000000000 ≤ d.nanos then
    toString (d.nanos / 1000000000) ++ fractionText (d.nanos % 1000000000) 9 ++ "s"
  else if 1000000 ≤ d.nanos then
    toString (d.nanos / 1000000) ++ fractionText (d.nanos % 1000000) 6 ++ "ms"
  else if 1000 ≤ d.nanos then
    toString (d.nanos / 1000) ++ fractionText (d.nanos % 1000) 3 ++ "µs"
  else toString d.nanos ++ "ns"

end Duration

end ResilientClient
