/-!
Points in time.

An `Instant` counts seconds from the start of 1970 in Coordinated Universal Time. Its nanoseconds go
beyond one second within a leap second, which follows its minute's second 59 and comes before the
next minute.
-/

namespace ReadModel

/-- A point in time. -/
structure Instant where
  seconds : Int
  nanos : Nat
  deriving DecidableEq

/-- A day of the Gregorian calendar, extended to all years. -/
structure CivilDate where
  year : Int
  month : Nat
  day : Nat
  deriving DecidableEq

/-- The years that instants can lie in. -/
def leastYear : Int := -262143

/-- The last year that instants can lie in. -/
def greatestYear : Int := 262142

/-- Whether a year has 366 days. -/
def isLeapYear (year : Int) : Bool :=
  year % 4 == 0 && (year % 100 != 0 || year % 400 == 0)

/-- The number of days of a month. -/
def daysInMonth (year : Int) (month : Nat) : Nat :=
  if month = 2 then (if isLeapYear year then 29 else 28)
  else if month = 4 ∨ month = 6 ∨ month = 9 ∨ month = 11 then 30
  else 31

namespace CivilDate

/-- Whether the calendar has the day and instants reach it. -/
def valid (d : CivilDate) : Bool :=
  leastYear ≤ d.year && d.year ≤ greatestYear && 1 ≤ d.month && d.month ≤ 12 && 1 ≤ d.day &&
    d.day ≤ daysInMonth d.year d.month

/-- The day's number, counted from the first day of 1970. Years are taken to begin in March, so that
a leap day is the last of its year. -/
def dayNumber (d : CivilDate) : Int :=
  let year := if d.month ≤ 2 then d.year - 1 else d.year
  let month := (d.month + 9) % 12
  let century := year / 400
  let yearOfCentury := year % 400
  let dayOfYear : Int := (153 * month + 2) / 5 + d.day - 1
  century * 146097 + yearOfCentury * 365 + yearOfCentury / 4 - yearOfCentury / 100 + dayOfYear -
    719468

/-- The day with a number. -/
def ofDayNumber (n : Int) : CivilDate :=
  let shifted := n + 719468
  let century := shifted / 146097
  let day := (shifted % 146097).toNat
  let yearOfCentury := (day - day / 1460 + day / 36524 - day / 146096) / 365
  let dayOfYear := day - (365 * yearOfCentury + yearOfCentury / 4 - yearOfCentury / 100)
  let month := (5 * dayOfYear + 2) / 153
  let year : Int := century * 400 + yearOfCentury
  { year := if month < 10 then year else year + 1
    month := if month < 10 then month + 3 else month - 9
    day := dayOfYear - (153 * month + 2) / 5 + 1 }

end CivilDate

namespace Instant

instance : Inhabited Instant := ⟨⟨0, 0⟩⟩

/-- Whether the first instant comes before the second. -/
def before (a b : Instant) : Bool :=
  a.seconds < b.seconds || (a.seconds == b.seconds && a.nanos < b.nanos)

/-- The day that an instant lies in. -/
def date (t : Instant) : CivilDate := .ofDayNumber (t.seconds / 86400)

/-- Whether an instant lies in a year that instants can lie in. -/
def inRange (t : Instant) : Bool := leastYear ≤ t.date.year && t.date.year ≤ greatestYear

/-- The instant of a day and a second of it. -/
def ofDate (d : CivilDate) (second : Int) (nanos : Nat) : Instant :=
  ⟨d.dayNumber * 86400 + second, nanos⟩

/-- The instant so many milliseconds earlier, if there is one. A leap second counts as part of the
second before it. -/
def minusMillis? (t : Instant) (ms : Nat) : Option Instant :=
  let nanos : Int := t.seconds * 1000000000 + t.nanos - ms * 1000000
  let earlier : Instant := ⟨nanos / 1000000000, (nanos % 1000000000).toNat⟩
  if earlier.inRange then some earlier else none

end Instant

end ReadModel
