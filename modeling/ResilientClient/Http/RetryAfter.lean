/-
The `Retry-After` header: a number of seconds, or a date, turned into a wait.
-/
import ResilientClient.Duration.Basic
import ResilientClient.Http.Date
import ResilientClient.Http.Header
import ResilientClient.Text.Blank

namespace ResilientClient.Http

/-- A server's request to wait before the next attempt. -/
structure RetryHint where
  /-- How long to wait. -/
  delay : Duration
  /-- The date that the server named, in seconds since the beginning of 1970, if it named one. -/
  date : Option Nat
deriving DecidableEq, Repr

namespace RetryHint

/-- The hint to wait for a given span. -/
def after (delay : Duration) : RetryHint := ⟨delay, none⟩

/-- The hint to wait until a date, which is none when the date is past. -/
def until? (now date : Nat) : Option RetryHint :=
  if now ≤ date then some ⟨.ofSeconds (date - now), some date⟩ else none

end RetryHint

/-- The most digits of an integer of 64 bits, leading zeros aside. -/
def int64Digits : Nat := 19

/-- An integer of 64 bits in decimal, with an optional sign. -/
def int64? (text : List Char) : Option Int :=
  let (negative, digits) := match text with
    | '-' :: rest => (true, rest)
    | '+' :: rest => (false, rest)
    | _ => (false, text)
  if digits.isEmpty || !digits.all Char.isDigit then none
  else if int64Digits < (digits.dropWhile (· == '0')).length then none
  else
    let magnitude : Nat := digits.foldl (fun n c => 10 * n + (c.toNat - 48)) 0
    let n : Int := if negative then -(magnitude : Int) else magnitude
    if -(twoTo 63) ≤ n ∧ n < twoTo 63 then some n else none

/-- The hint in a header text, at a given time in seconds since the beginning of 1970: a number of
seconds that is not negative, or a date that is not past. -/
def RetryHint.parse? (now : Nat) (text : String) : Option RetryHint :=
  let trimmed := Text.trim text.toList
  match int64? trimmed with
  | some n => if n < 0 then none else some (.after (.ofSeconds n.toNat))
  | none => (Date.parse? (String.ofList trimmed)).bind fun date => until? now date.epochSeconds

/-- The hint of the first `Retry-After` header, if it can be read. -/
def Headers.retryHint? (now : Nat) (headers : Headers) : Option RetryHint :=
  (headers.first? .retryAfter).bind fun value => value.toText?.bind (RetryHint.parse? now)

end ResilientClient.Http
