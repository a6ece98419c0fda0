/-
Spans of time as people write them, such as `1h 30m` or `1.5s`: reading of numbers with units,
added up, and the one text that is written for each span.
-/
import ResilientClient.Duration.Basic
import ResilientClient.Text.Blank
import ResilientClient.Text.Join

namespace ResilientClient.Duration.Human

/-! ## Units -/

/-- A unit of time. -/
inductive Measure where
  | nanosecond
  | microsecond
  | millisecond
  | second
  | minute
  | hour
  | day
  | week
  | month
  | year
deriving DecidableEq, Repr

namespace Measure

/-- The spellings of each unit. -/
def spellings : List (Measure × List String) :=
  [(.nanosecond, ["nanos", "nsec", "ns"]),
   (.microsecond, ["usec", "us", "µs"]),
   (.millisecond, ["millis", "msec", "ms"]),
   (.second, ["seconds", "second", "secs", "sec", "s"]),
   (.minute, ["minutes", "minute", "min", "mins", "m"]),
   (.hour, ["hours", "hour", "hr", "hrs", "h"]),
   (.day, ["days", "day", "d"]),
   (.week, ["weeks", "week", "wk", "wks", "w"]),
   (.month, ["months", "month", "M"]),
   (.year, ["years", "year", "yr", "yrs", "y"])]

/-- The unit that a text spells. -/
def parse? (text : String) : Option Measure :=
  (spellings.find? fun entry => entry.2.contains text).map Prod.fst

/-- The length of a unit of a second or more, in seconds; a month is 30.44 days and a year 365.25
days. -/
def seconds : Measure → Nat
  | .minute => 60
  | .hour => 3600
  | .day => 86400
  | .week => 604800
  | .month => 2630016
  | .year => 31557600
  | _ => 1

/-- How a number of units adds up: so many seconds and so many nanoseconds each. -/
def parts : Measure → Nat × Nat
  | .nanosecond => (0, 1)
  | .microsecond => (0, 1000)
  | .millisecond => (0, 1000000)
  | unit => (unit.seconds, 0)

/-- How a fraction of a unit adds up; there are no fractions of a nanosecond, up to a minute they
count in nanoseconds, and from an hour on in seconds. -/
def fractionParts : Measure → Option (Nat × Nat)
  | .nanosecond => none
  | .microsecond => some (0, 1000)
  | .millisecond => some (0, 1000000)
  | .second => some (0, 1000000000)
  | .minute => some (0, 60000000000)
  | unit => some (unit.seconds, 0)

end Measure

/-! ## Reading -/

/-- A number below `2 ^ 64`. -/
def word? (n : Nat) : Option Nat := if n < twoTo 64 then some n else none

/-- A fraction `numerator / denominator`. -/
structure Fraction where
  numerator : Nat
  denominator : Nat

/-- A sum of spans, as seconds and nanoseconds. -/
structure Sum where
  seconds : Nat
  nanos : Nat

/-- Adds seconds and nanoseconds to a sum, unless a part does not fit into 64 bits. -/
def Sum.add? (sum : Sum) (seconds nanos : Nat) : Option Sum := do
  let nanos ← word? (sum.nanos + nanos)
  let carry := if 1000000000 < nanos then nanos / 1000000000 else 0
  let nanos := if 1000000000 < nanos then nanos % 1000000000 else nanos
  let seconds ← word? (seconds + carry)
  let seconds ← word? (sum.seconds + seconds)
  if nanos = 1000000000 then
    let seconds ← word? (seconds + 1)
    return ⟨seconds, 0⟩
  else return ⟨seconds, nanos⟩

/-- Adds a number of units with a fraction, which has to come out even. -/
def Sum.addUnits? (sum : Sum) (n : Nat) (fraction : Option Fraction) (unit : Measure) :
    Option Sum := do
  let (s, ns) := unit.parts
  let s ← word? (n * s)
  let ns ← word? (n * ns)
  let sum ← sum.add? s ns
  match fraction with
  | none => return sum
  | some f =>
    let (s, ns) ← unit.fractionParts
    let s ← word? (f.numerator * s)
    let ns ← word? (f.numerator * ns)
    if s % f.denominator = 0 ∧ ns % f.denominator = 0 then
      sum.add? (s / f.denominator) (ns / f.denominator)
    else none

/-- The letters of units. -/
def isLetter (c : Char) : Bool := c.isAlpha || c == 'µ'

def digitValue (c : Char) : Nat := c.toNat - 48

/-- Where the reading of a span stands. -/
inductive State where
  /-- Before the first digit of a number. -/
  | before
  /-- In a number. -/
  | integer (n : Nat)
  /-- In the fraction of a number. -/
  | fraction (n : Nat) (f : Fraction)
  /-- In the unit of a number; `spelled` is what has been read of it, in reverse. -/
  | unit (n : Nat) (f : Option Fraction) (spelled : List Char)

/-- Adds the number whose unit has been read. -/
def closeUnit (sum : Sum) (n : Nat) (f : Option Fraction) (spelled : List Char) : Option Sum := do
  let unit ← Measure.parse? (String.ofList spelled.reverse)
  sum.addUnits? n f unit

/-- Extends a fraction by one digit. -/
def Fraction.push? (f : Fraction) (digit : Nat) : Option Fraction := do
  let denominator ← word? (f.denominator * 10)
  let numerator ← word? (f.numerator * 10 + digit)
  return ⟨numerator, denominator⟩

/-- Reads the rest of a sum of spans. -/
def readFrom (sum : Sum) : State → List Char → Option Sum
  | .before, [] => some sum
  | .before, c :: rest =>
    if c.isDigit then readFrom sum (.integer (digitValue c)) rest
    else if Text.isBlank c then readFrom sum .before rest
    else none
  | .integer _, [] => none
  | .integer n, c :: rest =>
    if c.isDigit then do
      let n ← word? (n * 10 + digitValue c)
      readFrom sum (.integer n) rest
    else if Text.isBlank c then readFrom sum (.integer n) rest
    else if isLetter c then readFrom sum (.unit n none [c]) rest
    else if c = '.' then readFrom sum (.fraction n ⟨0, 1⟩) rest
    else none
  | .fraction _ _, [] => none
  | .fraction n f, c :: rest =>
    if c.isDigit then do
      let f ← f.push? (digitValue c)
      readFrom sum (.fraction n f) rest
    else if Text.isBlank c then readFrom sum (.fraction n f) rest
    else if isLetter c then
      if f.denominator = 1 then none else readFrom sum (.unit n (some f) [c]) rest
    else none
  | .unit n f spelled, [] => closeUnit sum n f spelled
  | .unit n f spelled, c :: rest =>
    if isLetter c then readFrom sum (.unit n f (c :: spelled)) rest
    else if c.isDigit then do
      let sum ← closeUnit sum n f spelled
      readFrom sum (.integer (digitValue c)) rest
    else if Text.isBlank c then do
      let sum ← closeUnit sum n f spelled
      readFrom sum .before rest
    else none

/-- The span of seconds and nanoseconds. -/
def Sum.toDuration? (sum : Sum) : Option Duration :=
  Duration.ofNanos? (sum.seconds * 1000000000 + sum.nanos)

/-- The span that a text names: numbers with units, added up, or the single digit `0`. -/
def parse? (text : String) : Option Duration :=
  if text = "0" then some .zero
  else if text.toList.all Text.isBlank then none
  else (readFrom ⟨0, 0⟩ .before text.toList).bind Sum.toDuration?

/-! ## Writing -/

/-- A number with a unit that takes an `s` for more than one, or nothing for zero. -/
def plural (n : Nat) (unit : String) : List String :=
  if n = 0 then []
  else if n = 1 then ["1" ++ unit]
  else [toString n ++ unit ++ "s"]

/-- A number with a short unit, or nothing for zero. -/
def short (n : Nat) (unit : String) : List String :=
  if n = 0 then [] else [toString n ++ unit]

/-- The parts of a span that are not zero, from years down to nanoseconds. -/
def items (d : Duration) : List String :=
  let s := d.seconds
  let n := d.subsecond
  plural (s / 31557600) "year" ++ plural (s % 31557600 / 2630016) "month" ++
    plural (s % 31557600 % 2630016 / 86400) "day" ++
    short (s % 31557600 % 2630016 % 86400 / 3600) "h" ++
    short (s % 31557600 % 2630016 % 86400 % 3600 / 60) "m" ++
    short (s % 31557600 % 2630016 % 86400 % 60) "s" ++
    short (n / 1000000) "ms" ++ short (n / 1000 % 1000) "us" ++ short (n % 1000) "ns"

/-- The written form of a span: its parts joined by spaces, and `0s` for the empty span. -/
def render (d : Duration) : String :=
  match items d with
  | [] => "0s"
  | parts => Text.join " " parts

end ResilientClient.Duration.Human
