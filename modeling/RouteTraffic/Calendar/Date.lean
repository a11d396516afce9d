/-!
# Civil dates

Dates of the proleptic Gregorian calendar and their day numbers, counted from 1970-01-01.
-/

namespace RouteTraffic.Calendar

/-- Leap years have 366 days. -/
def isLeap (year : Int) : Bool :=
  year % 4 == 0 && (year % 100 != 0 || year % 400 == 0)

/-- The lengths of the months of a year. -/
def monthLengths (leap : Bool) : List Nat :=
  [31, if leap then 29 else 28, 31, 30, 31, 30, 31, 31, 30, 31, 30, 31]

/-- The length of a month, counted from one. -/
def daysInMonth (year : Int) (month : Nat) : Nat :=
  if month = 0 then 0 else (monthLengths (isLeap year)).getD (month - 1) 0

/-- The days of a year before a month, counted from one. -/
def daysBeforeMonth (leap : Bool) (month : Nat) : Nat :=
  ((monthLengths leap).take (month - 1)).foldl (· + ·) 0

/-- The day number of the first of January. -/
def daysBeforeYear (year : Int) : Int :=
  365 * (year - 1970) + (year - 1) / 4 - (year - 1) / 100 + (year - 1) / 400 - 477

/-- A date as year, month and day of the month. -/
structure Date where
  year : Int
  month : Nat
  day : Nat
  deriving DecidableEq, Repr

/-- The month and the day exist. -/
def Date.isValid (d : Date) : Bool :=
  1 ≤ d.month && d.month ≤ 12 && 1 ≤ d.day && d.day ≤ daysInMonth d.year d.month

/-- The day number of a date. -/
def Date.toDayNumber (d : Date) : Int :=
  daysBeforeYear d.year + daysBeforeMonth (isLeap d.year) d.month + (d.day - 1 : Nat)

/-- The month and day of the month of a day within a year, both counted from one. -/
def monthAndDay : List Nat → Nat → Nat → Nat × Nat
  | [], month, rest => (month, rest + 1)
  | length :: lengths, month, rest =>
    if rest < length then (month, rest + 1) else monthAndDay lengths (month + 1) (rest - length)

/-- The year of a day number: the mean length of a year gives it up to one. -/
def yearOfDay (n : Int) : Int :=
  let guess := n * 400 / 146097 + 1970
  if n < daysBeforeYear guess then guess - 1
  else if daysBeforeYear (guess + 1) ≤ n then guess + 1
  else guess

/-- The date of a day number. -/
def Date.ofDayNumber (n : Int) : Date :=
  let year := yearOfDay n
  let (month, day) := monthAndDay (monthLengths (isLeap year)) 1 (n - daysBeforeYear year).toNat
  ⟨year, month, day⟩

/-- The day of the week of a day number, Sunday being zero. -/
def weekday (n : Int) : Nat :=
  ((n + 4) % 7).toNat

/-- The first year of the calendar. -/
def firstYear : Int := -262143

/-- The last year of the calendar. -/
def lastYear : Int := 262142

/-- The date lies in the calendar, month and day apart. -/
def Date.inCalendar (d : Date) : Bool :=
  decide (firstYear ≤ d.year) && decide (d.year ≤ lastYear)

/-- The first second of the calendar, counted from 1970-01-01T00:00:00. -/
def firstSecond : Int := -8334601228800

/-- The last second of the calendar. -/
def lastSecond : Int := 8210266876799

theorem firstSecond_eq : firstSecond = daysBeforeYear firstYear * 86400 := by decide

theorem lastSecond_eq : lastSecond = daysBeforeYear (lastYear + 1) * 86400 - 1 := by decide

end RouteTraffic.Calendar
