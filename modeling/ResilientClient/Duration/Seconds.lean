/-
Spans of time as binary floating-point numbers of seconds, and back.
-/
import ResilientClient.Duration.Basic
import ResilientClient.Binary64.Basic

namespace ResilientClient.Duration

/-- The number of seconds of a span: its whole seconds plus its nanoseconds divided by `10 ^ 9`,
each step rounded. -/
def toBinary64 (d : Duration) : Binary64 :=
  Binary64.ofNat d.seconds + Binary64.ofNat d.subsecond / Binary64.ofNat 1000000000

/-- The span nearest to a number of seconds, a half nanosecond going to the even neighbour; a
negative number, an infinity and a word that is not a number give the empty span. -/
def ofBinary64 (x : Binary64) : Duration :=
  match x.value with
  | .finite false m e =>
    if 0 ≤ e then ofNanos (m * twoTo e.toNat * 1000000000)
    else ofNanos (Binary64.roundDiv (m * 1000000000) (twoTo (-e).toNat))
  | _ => zero

end ResilientClient.Duration
