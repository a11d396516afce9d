import RouteTraffic.Decimal.Power
import RouteTraffic.Instant.Printer
import RouteTraffic.Text.Blank
import RouteTraffic.Text.Quoted
import RouteTraffic.Text.Utf8

/-!
# Instants from text

A timestamp is read as a date and time with an offset from UTC, in the strict Internet form;
failing that, as a local date and time in one of three layouts; failing that, as a bare date,
which stands for its midnight in UTC.  What is read is cut to the millisecond.

A second, lenient form with an offset is read where a document holds instants at full
precision: blanks may stand around the separators and years may have a sign.
-/

namespace RouteTraffic.Instant

open Text Calendar

/-- Why a text is not a date and time with an offset. -/
inductive Fault where
  | tooShort
  | invalid
  | outOfRange
  | trailing
  /-- The clock of the zone never shows this local time. -/
  | skippedLocalTime
  deriving DecidableEq, Repr

/-- The wording of a fault. -/
def Fault.message : Fault → String
  | .tooShort => "premature end of input"
  | .invalid => "input contains invalid characters"
  | .outOfRange => "input is out of range"
  | .trailing => "trailing input"
  | .skippedLocalTime => "local time does not exist"

/-- A date and a time of day without an offset.  In a leap second the second of the day is that
before it, and the nanoseconds are those since the start of that one. -/
structure LocalTime where
  date : Date
  secondOfDay : Nat
  nanos : Nat
  deriving DecidableEq, Repr

/-- The seconds of a local time, as if it were UTC. -/
def LocalTime.seconds (t : LocalTime) : Int :=
  t.date.toDayNumber * 86400 + t.secondOfDay

/-- The local time with these parts, if its date and its clock time exist.  The sixtieth second
is the leap second after the fifty-ninth. -/
def LocalTime.of? (date : Date) (hour minute second nanos : Nat) : Option LocalTime :=
  if date.isValid && decide (hour < 24) && decide (minute < 60) && decide (second ≤ 60) then
    let leap := if second = 60 then 1 else 0
    some ⟨date, hour * 3600 + minute * 60 + (second - leap), leap * 1000000000 + nanos⟩
  else none

/-- The instant of a local time at an offset east of UTC. -/
def LocalTime.atOffset? (t : LocalTime) (offset : Int) : Option Instant :=
  Instant.of? (t.seconds - offset) t.nanos

/-! ### The strict form -/

/-- The next character, which has to satisfy a test. -/
def oneOf (ok : Char → Bool) : List Char → Except Fault (List Char)
  | c :: rest => if ok c then .ok rest else .error .invalid
  | [] => .error .tooShort

/-- Exactly `n` digits. -/
def exactDigits : Nat → List Char → Nat → Except Fault (Nat × List Char)
  | 0, cs, v => .ok (v, cs)
  | n + 1, c :: rest, v =>
    if isDigit c then exactDigits n rest (10 * v + digitValue c) else .error .invalid
  | _ + 1, [], _ => .error .tooShort

/-- The digits of a fraction as nanoseconds; digits after the ninth are skipped. -/
def fraction (cs : List Char) : Except Fault (Nat × List Char) :=
  match cs with
  | [] => .error .tooShort
  | c :: _ =>
    if isDigit c then
      let ds := (cs.takeWhile isDigit).take 9
      .ok (ofDigits ds * Decimal.tenPow (9 - ds.length), cs.dropWhile isDigit)
    else .error .invalid

/-- A fraction, if a point introduces one. -/
def optionalFraction (cs : List Char) : Except Fault (Nat × List Char) :=
  match cs with
  | '.' :: rest => fraction rest
  | cs => .ok (0, cs)

/-- Two digits of an offset.  Fewer than two bytes are too short; else both must be digits. -/
def offsetDigits (cs : List Char) : Except Fault ((Nat × Nat) × List Char) :=
  match cs with
  | [] => .error .tooShort
  | [c] => .error (if c.utf8Size < 2 then .tooShort else .invalid)
  | a :: b :: rest =>
    if isDigit a && isDigit b then .ok ((digitValue a, digitValue b), rest) else .error .invalid

/-- The hours and minutes of an offset after its sign, as seconds. -/
def offsetBody (separator : List Char → Except Fault (List Char)) (cs : List Char) :
    Except Fault (Nat × List Char) := do
  let ((h₁, h₂), cs) ← offsetDigits cs
  let cs ← separator cs
  let ((m₁, m₂), cs) ← offsetDigits cs
  if 6 ≤ m₁ then .error .outOfRange
  else .ok ((10 * h₁ + h₂) * 3600 + (10 * m₁ + m₂) * 60, cs)

/-- An offset east of UTC in seconds: `Z`, or a sign, hours, a separator and minutes. -/
def offset (separator : List Char → Except Fault (List Char)) (cs : List Char) :
    Except Fault (Int × List Char) :=
  match cs with
  | [] => .error .tooShort
  | c :: rest =>
    if c = 'Z' || c = 'z' then .ok (0, rest)
    else if c = '+' then (offsetBody separator rest).map fun (s, rest) => ((s : Int), rest)
    else if c = '-' || c = '−' then
      (offsetBody separator rest).map fun (s, rest) => (-(s : Int), rest)
    else .error .invalid

/-- The separator of the strict form, one colon. -/
def colon : List Char → Except Fault (List Char) :=
  oneOf (· == ':')

/-- A value that has to exist. -/
def inRange {α : Type} : Option α → Except Fault α
  | some a => .ok a
  | none => .error .outOfRange

/-- The instant of a local time at an offset of less than a day. -/
def withOffset (t : LocalTime) (offset : Int) : Except Fault Instant :=
  if offset.natAbs < 86400 then inRange (t.atOffset? offset) else .error .outOfRange

/-- Reads `YYYY-MM-DDTHH:MM:SS`, an optional fraction, and an offset. -/
def parseStrict (cs : List Char) : Except Fault Instant := do
  if utf8Length cs < 19 then .error .tooShort
  let dash := oneOf (· == '-')
  let (year, cs) ← exactDigits 4 cs 0
  let cs ← dash cs
  let (month, cs) ← exactDigits 2 cs 0
  let cs ← dash cs
  let (day, cs) ← exactDigits 2 cs 0
  let date : Date := ⟨year, month, day⟩
  if !date.isValid then .error .outOfRange
  let cs ← oneOf (fun c => c == 'T' || c == 't' || c == ' ') cs
  let (hour, cs) ← exactDigits 2 cs 0
  let cs ← colon cs
  let (minute, cs) ← exactDigits 2 cs 0
  let cs ← colon cs
  let (second, cs) ← exactDigits 2 cs 0
  let (nanos, cs) ← optionalFraction cs
  let time ← inRange (LocalTime.of? date hour minute second nanos)
  let (east, cs) ← offset colon cs
  if cs ≠ [] then .error .trailing
  withOffset time east

/-! ### Layouts without an offset -/

/-- A number of one digit up to `width` digits, after optional blanks. -/
def numberUpTo? (width : Nat) (cs : List Char) : Option (Nat × List Char) :=
  let cs := trimStart cs
  let ds := (cs.takeWhile isDigit).take width
  if ds = [] then none else some (ofDigits ds, cs.drop ds.length)

/-- A year: four digits at most, or any number of digits after a sign. -/
def year? (cs : List Char) : Option (Int × List Char) :=
  let cs := trimStart cs
  match cs with
  | '-' :: rest => (signed? rest).map fun (y, rest) => (-(y : Int), rest)
  | '+' :: rest => (signed? rest).map fun (y, rest) => ((y : Int), rest)
  | cs => (numberUpTo? 4 cs).map fun (y, rest) => ((y : Int), rest)
where
  signed? (cs : List Char) : Option (Nat × List Char) :=
    let ds := cs.takeWhile isDigit
    if ds = [] then none else some (ofDigits ds, cs.drop ds.length)

/-- One given character. -/
def char? (c : Char) : List Char → Option (List Char)
  | d :: rest => if d = c then some rest else none
  | [] => none

/-- An optional fraction as nanoseconds. -/
def fraction? (cs : List Char) : Option (Nat × List Char) :=
  (optionalFraction cs).toOption

/-- A date `Y-M-D`, with `gap` applied before each dash. -/
def date? (gap : List Char → List Char) (cs : List Char) : Option (Date × List Char) := do
  let (year, cs) ← year? cs
  let cs ← char? '-' (gap cs)
  let (month, cs) ← numberUpTo? 2 cs
  let cs ← char? '-' (gap cs)
  let (day, cs) ← numberUpTo? 2 cs
  pure (⟨year, month, day⟩, cs)

/-- What stands between the date and the time of a local layout. -/
inductive Separator where
  | letterT
  | blanks
  deriving DecidableEq, Repr

/-- Skips the separator. -/
def Separator.skip? : Separator → List Char → Option (List Char)
  | .letterT, cs => char? 'T' cs
  | .blanks, cs => some (trimStart cs)

/-- A local date and time to the second, with an optional fraction. -/
def localSeconds? (sep : Separator) (cs : List Char) : Option LocalTime := do
  let (date, cs) ← date? id cs
  let cs ← sep.skip? cs
  let (hour, cs) ← numberUpTo? 2 cs
  let cs ← char? ':' cs
  let (minute, cs) ← numberUpTo? 2 cs
  let cs ← char? ':' cs
  let (second, cs) ← numberUpTo? 2 cs
  let (nanos, cs) ← fraction? cs
  if cs = [] && date.inCalendar then LocalTime.of? date hour minute second nanos else none

/-- A local date and time to the minute. -/
def localMinutes? (cs : List Char) : Option LocalTime := do
  let (date, cs) ← date? id cs
  let cs ← char? 'T' cs
  let (hour, cs) ← numberUpTo? 2 cs
  let cs ← char? ':' cs
  let (minute, cs) ← numberUpTo? 2 cs
  if cs = [] && date.inCalendar then LocalTime.of? date hour minute 0 0 else none

/-- A local date and time in any of the three layouts. -/
def localTime? (cs : List Char) : Option LocalTime :=
  localSeconds? .letterT cs <|> localSeconds? .blanks cs <|> localMinutes? cs

/-- A bare date, read as midnight in UTC. -/
def midnight? (cs : List Char) : Option Instant := do
  let (date, cs) ← date? id cs
  if cs = [] && date.inCalendar then (LocalTime.of? date 0 0 0 0).bind (·.atOffset? 0) else none

/-! ### Timestamps -/

/-- Reads a timestamp in a zone and cuts it to the millisecond.  The fault of a text in no form at
all is that of the strict form. -/
def parse (z : Zone) (text : String) : Except Fault Instant :=
  let cs := trim text.toList
  match parseStrict cs with
  | .ok t => .ok t.truncateToMillis
  | .error fault =>
    match localTime? cs with
    | some t =>
      match z.instantOfLocal? t.seconds t.nanos with
      | some t => .ok t.truncateToMillis
      | none => .error .skippedLocalTime
    | none =>
      match midnight? cs with
      | some t => .ok t
      | none => .error fault

/-! ### The lenient form -/

/-- Skips colons and blanks. -/
def colonsAndBlanks (cs : List Char) : Except Fault (List Char) :=
  .ok (cs.dropWhile fun c => c == ':' || isBlank c)

/-- The offset of the lenient form: the letters `UTC` in any case, or an offset. -/
def lenientOffset? (cs : List Char) : Option (Int × List Char) :=
  if lowerAscii (cs.take 3) = "utc".toList then some (0, cs.drop 3)
  else (offset colonsAndBlanks cs).toOption

/-- Reads a date and time with an offset, allowing blanks around separators and signed years. -/
def parseLenient? (text : String) : Option Instant := do
  let (date, cs) ← date? trimStart text.toList
  let cs ← (oneOf (fun c => c == 'T' || c == 't' || c == ' ') cs).toOption
  let (hour, cs) ← numberUpTo? 2 cs
  let cs ← char? ':' (trimStart cs)
  let (minute, cs) ← numberUpTo? 2 cs
  let cs ← char? ':' (trimStart cs)
  let (second, cs) ← numberUpTo? 2 cs
  let (nanos, cs) ← fraction? cs
  let (east, cs) ← lenientOffset? (trimStart cs)
  if trimStart cs = [] && date.inCalendar then
    let time ← LocalTime.of? date hour minute second nanos
    (withOffset time east).toOption
  else none

end RouteTraffic.Instant
