import RouteTraffic.Instant
import RouteTraffic.Text.Digits

/-!
# Local time

A time zone has a standard offset from UTC and, where daylight saving is kept, a second offset
with the two yearly rules between which it holds.  Zones are read from POSIX rule texts such
as `EST5EDT,M3.2.0,M11.1.0`.

Local times are seconds counted as if the wall clock were UTC.  In an hour that the clock
repeats, a local time is read as standard time; in an hour that it skips, there is no instant.
-/

namespace RouteTraffic.Calendar

/-- A yearly change: a week (5 being the last) and a weekday of a month, and a time of that day. -/
structure ChangeRule where
  month : Nat
  week : Nat
  weekday : Nat
  timeOfDay : Int
  deriving DecidableEq, Repr

/-- The day number of a change in a year. -/
def ChangeRule.dayNumber (r : ChangeRule) (year : Int) : Int :=
  let firstOfMonth := Date.toDayNumber ⟨year, r.month, 1⟩
  let firstMatch := (r.weekday + 7 - Calendar.weekday firstOfMonth) % 7
  let offset := firstMatch + 7 * (r.week - 1)
  let offset := if daysInMonth year r.month ≤ offset then offset - 7 else offset
  firstOfMonth + offset

/-- The local time of a change in a year, in the time that holds before it. -/
def ChangeRule.localTime (r : ChangeRule) (year : Int) : Int :=
  r.dayNumber year * 86400 + r.timeOfDay

/-- The daylight saving time of a zone: its offset and the rules for its start and end. -/
structure Daylight where
  offset : Int
  start : ChangeRule
  stop : ChangeRule
  deriving DecidableEq, Repr

/-- A zone: seconds east of UTC in standard time, and daylight saving time if it is kept. -/
structure Zone where
  standard : Int
  daylight : Option Daylight
  deriving DecidableEq, Repr

/-- Coordinated universal time. -/
def Zone.utc : Zone := ⟨0, none⟩

/-- The year of a number of seconds. -/
def yearOfSeconds (seconds : Int) : Int :=
  yearOfDay (seconds / 86400)

/-- The seconds east of UTC that hold at an instant. -/
def Zone.offsetAt (z : Zone) (utcSeconds : Int) : Int :=
  match z.daylight with
  | none => z.standard
  | some d =>
    let year := yearOfSeconds utcSeconds
    let start := d.start.localTime year - z.standard
    let stop := d.stop.localTime year - d.offset
    let saving :=
      if start < stop then start ≤ utcSeconds && utcSeconds < stop
      else utcSeconds < stop || start ≤ utcSeconds
    if saving then d.offset else z.standard

/-- The wall clock at an instant, as seconds. -/
def Zone.wallClock (z : Zone) (t : Instant) : Int :=
  t.seconds + z.offsetAt t.seconds

/-- The offset in which a local time is read, if the clock ever shows it.  `S` is the local start
of daylight saving and `E` its local end; the clock skips the hour after `S` and repeats the
hour before `E`. -/
def Zone.offsetOfLocal? (z : Zone) (localSeconds : Int) : Option Int :=
  match z.daylight with
  | none => some z.standard
  | some d =>
    let year := yearOfSeconds localSeconds
    let change := d.offset - z.standard
    let start := d.start.localTime year
    let stop := d.stop.localTime year
    if start < stop then
      if localSeconds ≤ start then some z.standard
      else if localSeconds < start + change then none
      else if localSeconds < stop - change then some d.offset
      else some z.standard
    else
      if localSeconds < stop - change then some d.offset
      else if localSeconds < start then some z.standard
      else if localSeconds < start + change then none
      else some d.offset

/-- The instant of a local time, if there is one. -/
def Zone.instantOfLocal? (z : Zone) (localSeconds : Int) (nanos : Nat) : Option Instant :=
  (z.offsetOfLocal? localSeconds).bind fun offset => Instant.of? (localSeconds - offset) nanos

/-! ### POSIX rule texts -/

/-- A zone abbreviation, letters or a text in angle brackets, and the text after it. -/
def abbreviation? (cs : List Char) : Option (List Char) :=
  match cs with
  | '<' :: rest =>
    match rest.dropWhile (· != '>') with
    | '>' :: rest => some rest
    | _ => none
  | cs =>
    let name := cs.takeWhile Char.isAlpha
    if 3 ≤ name.length then some (cs.dropWhile Char.isAlpha) else none

/-- A number of at least one digit, and the text after it. -/
def number? (cs : List Char) : Option (Nat × List Char) :=
  let ds := cs.takeWhile Text.isDigit
  if ds = [] then none else some (Text.ofDigits ds, cs.dropWhile Text.isDigit)

/-- A time `hh`, `hh:mm` or `hh:mm:ss` in seconds, and the text after it. -/
def clockTime? (cs : List Char) : Option (Int × List Char) := do
  let (h, rest) ← number? cs
  match rest with
  | ':' :: rest =>
    let (m, rest) ← number? rest
    match rest with
    | ':' :: rest =>
      let (s, rest) ← number? rest
      pure (h * 3600 + m * 60 + s, rest)
    | rest => pure (h * 3600 + m * 60, rest)
  | rest => pure (h * 3600, rest)

/-- A time with an optional sign. -/
def signedTime? (cs : List Char) : Option (Int × List Char) :=
  match cs with
  | '-' :: rest => (clockTime? rest).map fun (t, rest) => (-t, rest)
  | '+' :: rest => clockTime? rest
  | cs => clockTime? cs

/-- A change rule `,Mm.w.d` with an optional `/time`, and the text after it. -/
def changeRule? (cs : List Char) : Option (ChangeRule × List Char) :=
  match cs with
  | ',' :: 'M' :: rest => do
    let (month, rest) ← number? rest
    let rest ← dot? rest
    let (week, rest) ← number? rest
    let rest ← dot? rest
    let (weekday, rest) ← number? rest
    let (time, rest) ←
      match rest with
      | '/' :: rest => signedTime? rest
      | rest => some (2 * 3600, rest)
    pure (⟨month, week, weekday, time⟩, rest)
  | _ => none
where
  dot? : List Char → Option (List Char)
    | '.' :: rest => some rest
    | _ => none

/-- The zone of a POSIX rule text, whose offsets count hours west.  Daylight saving time is one
hour ahead of standard time unless the text gives its offset. -/
def Zone.ofPosix? (text : String) : Option Zone := do
  let rest ← abbreviation? text.toList
  let (west, rest) ← signedTime? rest
  if rest = [] then pure ⟨-west, none⟩
  else
    let rest ← abbreviation? rest
    let (daylightWest, rest) := (signedTime? rest).getD (west - 3600, rest)
    let (start, rest) ← changeRule? rest
    let (stop, rest) ← changeRule? rest
    if rest = [] then pure ⟨-west, some ⟨-daylightWest, start, stop⟩⟩ else none

end RouteTraffic.Calendar
