/-!
# Civil dates

The proleptic Gregorian calendar, with a year 0 and negative years. Days are counted from
1970-01-01. A date is found from its day count in two steps: the year, guessed from the mean length
of a year and corrected by at most one, and the month, by walking through the month lengths.
-/

namespace EntityQuery.Calendar

/-- A year, a month from 1 and a day from 1. -/
structure Date where
  year : Int
  month : Nat
  day : Nat
deriving DecidableEq

/-- Whether a year has a 29th of February. -/
def isLeap (year : Int) : Bool :=
  year % 4 == 0 && (year % 100 != 0 || year % 400 == 0)

/-- The lengths of the twelve months. -/
def monthLengths (year : Int) : List Nat :=
  [31, if isLeap year then 29 else 28, 31, 30, 31, 30, 31, 31, 30, 31, 30, 31]

/-- The length of a month, `0` for a month that does not exist. -/
def monthLength (year : Int) (month : Nat) : Nat :=
  match month with
  | 0 => 0
  | m + 1 => ((monthLengths year)[m]?).getD 0

/-- Whether a date exists. -/
def Date.isValid (d : Date) : Bool :=
  decide (1 ≤ d.day) && decide (d.day ≤ monthLength d.year d.month)

/-- The days from 0001-01-01 to the first day of a year. -/
def daysBeforeYear (year : Int) : Int :=
  let y := year - 1
  365 * y + y / 4 - y / 100 + y / 400

/-- The days from 0001-01-01 to 1970-01-01. -/
def epochDays : Int := 719162

/-- The days from the first day of a date's year to the date. -/
def Date.dayOfYear (d : Date) : Nat :=
  ((monthLengths d.year).take (d.month - 1)).foldl (· + ·) 0 + (d.day - 1)

/-- The days from 1970-01-01 to a date. -/
def Date.toDays (d : Date) : Int :=
  daysBeforeYear d.year + d.dayOfYear - epochDays

/-- The year that the `n`th day after 0001-01-01 falls in. -/
def yearOf (n : Int) : Int :=
  let guess := n * 400 / 146097 + 1
  if n < daysBeforeYear guess then guess - 1
  else if daysBeforeYear (guess + 1) ≤ n then guess + 1
  else guess

/-- Walk through month lengths: the month, counted from `month`, and the day within it. -/
def locateMonth (month : Nat) : List Nat → Nat → Nat × Nat
  | [], n => (month, n + 1)
  | len :: lens, n => if n < len then (month, n + 1) else locateMonth (month + 1) lens (n - len)

/-- The date of a day counted from 1970-01-01. -/
def Date.ofDays (days : Int) : Date :=
  let n := days + epochDays
  let year := yearOf n
  let (month, day) := locateMonth 1 (monthLengths year) (n - daysBeforeYear year).toNat
  ⟨year, month, day⟩

/-- The day of the last Sunday of a month with 31 days; 1970-01-01 was a Thursday. -/
def lastSunday (year : Int) (month : Nat) : Int :=
  let last := (⟨year, month, 31⟩ : Date).toDays
  last - (last + 4) % 7

end EntityQuery.Calendar
