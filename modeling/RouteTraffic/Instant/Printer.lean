import RouteTraffic.Calendar.Zone

/-!
# Instants as text

The date and time of an instant in UTC, with the fewest of 0, 3, 6 or 9 decimals that hold its
nanoseconds, and the clock time of an instant in a zone.  A leap second is the sixtieth.
-/

namespace RouteTraffic.Instant

open Text Calendar

/-- A year: four digits where they suffice and it is not negative, a sign otherwise. -/
def yearText (year : Int) : List Char :=
  if 0 ≤ year ∧ year ≤ 9999 then paddedDigits 4 year.natAbs
  else (if year < 0 then '-' else '+') :: paddedDigits 4 year.natAbs

/-- A date as `YYYY-MM-DD`. -/
def dateText (d : Date) : List Char :=
  yearText d.year ++ '-' :: paddedDigits 2 d.month ++ '-' :: paddedDigits 2 d.day

/-- A clock time as `HH:MM:SS`; the last second may be the sixtieth. -/
def clockText (secondOfDay extra : Nat) : List Char :=
  paddedDigits 2 (secondOfDay / 3600) ++ ':' :: paddedDigits 2 (secondOfDay / 60 % 60) ++
    ':' :: paddedDigits 2 (secondOfDay % 60 + extra)

/-- Nanoseconds as a fraction of a second. -/
def fractionText (nanos : Nat) : List Char :=
  if nanos = 0 then []
  else if nanos % 1000000 = 0 then '.' :: paddedDigits 3 (nanos / 1000000)
  else if nanos % 1000 = 0 then '.' :: paddedDigits 6 (nanos / 1000)
  else '.' :: paddedDigits 9 nanos

/-- One in a leap second, zero in an ordinary one. -/
def leapSecond (t : Instant) : Nat := t.nanos / 1000000000

/-- The date and time in UTC. -/
def render (t : Instant) : List Char :=
  dateText (Date.ofDayNumber (t.seconds / 86400)) ++ 'T' ::
    clockText t.secondOfDay.toNat t.leapSecond ++ fractionText (t.nanos % 1000000000) ++ ['Z']

/-- The date and time in UTC. -/
def toText (t : Instant) : String := String.ofList t.render

/-- The clock time in a zone. -/
def clockTime (z : Zone) (t : Instant) : String :=
  String.ofList (clockText ((z.wallClock t) % 86400).toNat t.leapSecond)

end RouteTraffic.Instant
