/-
Dates in HTTP headers: the three layouts that are read, the Gregorian calendar, and the number of
seconds since the beginning of 1970 that a date names.
-/
namespace ResilientClient.Http

/-- A date and a time of day, with the day of the week counted from Sunday. -/
structure Date where
  year : Nat
  month : Nat
  day : Nat
  hour : Nat
  minute : Nat
  second : Nat
  weekday : Nat
deriving DecidableEq, Repr

namespace Date

/-! ## Calendar -/

def isLeapYear (year : Nat) : Bool := year % 4 == 0 && (year % 100 != 0 || year % 400 == 0)

/-- The number of days of a month. -/
def daysInMonth (year month : Nat) : Nat :=
  match month with
  | 2 => if isLeapYear year then 29 else 28
  | 4 | 6 | 9 | 11 => 30
  | _ => 31

/-- The leap years before a given year of the common era. -/
def leapYearsBefore (year : Nat) : Nat := (year - 1) / 4 - (year - 1) / 100 + (year - 1) / 400

/-- The days from the beginning of 1970 to the beginning of a later year. -/
def daysBeforeYear (year : Nat) : Nat :=
  365 * (year - 1970) + (leapYearsBefore year - leapYearsBefore 1970)

/-- The days of a year before a given month. -/
def daysBeforeMonth (year month : Nat) : Nat :=
  (List.range' 1 (month - 1)).foldl (fun days m => days + daysInMonth year m) 0

/-- The days from the beginning of 1970. -/
def dayNumber (d : Date) : Nat :=
  daysBeforeYear d.year + daysBeforeMonth d.year d.month + (d.day - 1)

/-- The seconds from the beginning of 1970. -/
def epochSeconds (d : Date) : Nat :=
  d.dayNumber * 86400 + d.hour * 3600 + d.minute * 60 + d.second

/-- The fields name an instant from 1970 to 9999, and the weekday is the one of that day. -/
def isValid (d : Date) : Bool :=
  d.second < 60 && d.minute < 60 && d.hour < 24 && 1 ≤ d.month && d.month ≤ 12 && 1 ≤ d.day &&
    d.day ≤ daysInMonth d.year d.month && 1970 ≤ d.year && d.year ≤ 9999 &&
    (d.dayNumber + 4) % 7 == d.weekday

/-! ## Layouts -/

/-- A reader of a part of a text, which yields what it read and leaves the rest. -/
abbrev Reader := StateT (List Char) Option

/-- Reads one given text. -/
def literal (word : String) : Reader Unit := fun text =>
  if word.toList.isPrefixOf text then some ((), text.drop word.length) else none

/-- Reads one character, whatever it is. -/
def anyChar : Reader Char
  | [] => none
  | c :: rest => some (c, rest)

/-- Reads one decimal digit. -/
def digit : Reader Nat
  | c :: rest => if c.isDigit then some (c.toNat - 48, rest) else none
  | [] => none

def twoDigits : Reader Nat := do
  let tens ← digit
  let ones ← digit
  return 10 * tens + ones

def fourDigits : Reader Nat := do
  let high ← twoDigits
  let low ← twoDigits
  return 100 * high + low

/-- Reads one of several texts and yields its position among them. -/
def oneOf (words : List String) : Reader Nat := fun text =>
  match words.findIdx? fun word => word.toList.isPrefixOf text with
  | some i => some (i, text.drop (words.getD i "").length)
  | none => none

/-- Ends a reading: nothing is left. -/
def finished : Reader Unit
  | [] => some ((), [])
  | _ :: _ => none

def shortDays : List String := ["Sun", "Mon", "Tue", "Wed", "Thu", "Fri", "Sat"]

def longDays : List String :=
  ["Sunday", "Monday", "Tuesday", "Wednesday", "Thursday", "Friday", "Saturday"]

def months : List String :=
  ["Jan", "Feb", "Mar", "Apr", "May", "Jun", "Jul", "Aug", "Sep", "Oct", "Nov", "Dec"]

/-- Reads a time of day `hh:mm:ss`. -/
def clock : Reader (Nat × Nat × Nat) := do
  let hour ← twoDigits
  literal ":"
  let minute ← twoDigits
  literal ":"
  let second ← twoDigits
  return (hour, minute, second)

/-- The preferred layout, such as `Sun, 06 Nov 1994 08:49:37 GMT`. -/
def fixed : Reader Date := do
  let weekday ← oneOf shortDays
  literal ", "
  let day ← twoDigits
  literal " "
  let month ← oneOf months
  literal " "
  let year ← fourDigits
  literal " "
  let (hour, minute, second) ← clock
  literal " GMT"
  finished
  return ⟨year, month + 1, day, hour, minute, second, weekday⟩

/-- The layout with a long weekday and a year of two digits, such as
`Sunday, 06-Nov-94 08:49:37 GMT`; years below 70 belong to this century. -/
def withShortYear : Reader Date := do
  let weekday ← oneOf longDays
  literal ", "
  let day ← twoDigits
  literal "-"
  let month ← oneOf months
  literal "-"
  let year ← twoDigits
  let _ ← anyChar
  let (hour, minute, second) ← clock
  literal " GMT"
  finished
  return ⟨if year < 70 then 2000 + year else 1900 + year, month + 1, day, hour, minute, second,
    weekday⟩

/-- Reads a day of the month of two digits, or of a space and one digit. -/
def paddedDay : Reader Nat := fun text =>
  match text with
  | ' ' :: rest => digit rest
  | _ => twoDigits text

/-- The layout that ends in the year, such as `Sun Nov  6 08:49:37 1994`. -/
def yearLast : Reader Date := do
  let weekday ← oneOf shortDays
  literal " "
  let month ← oneOf months
  literal " "
  let day ← paddedDay
  literal " "
  let (hour, minute, second) ← clock
  literal " "
  let year ← fourDigits
  finished
  return ⟨year, month + 1, day, hour, minute, second, weekday⟩

/-- The valid date that a text names in one of the three layouts. -/
def parse? (text : String) : Option Date :=
  let read (layout : Reader Date) : Option Date := (layout text.toList).map Prod.fst
  match (read fixed).orElse fun _ => (read withShortYear).orElse fun _ => read yearLast with
  | some date => if date.isValid then some date else none
  | none => none

end Date

end ResilientClient.Http
