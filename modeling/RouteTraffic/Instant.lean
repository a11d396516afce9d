import RouteTraffic.Calendar.Date

/-!
# Instants and spans

An instant is a second of the calendar and the nanoseconds within it.  A leap second is kept
as the second before it with a nanosecond part of one second or more, so instants are ordered
by their seconds and then by their nanoseconds.  Spans are signed numbers of nanoseconds.
-/

namespace RouteTraffic

/-- A signed length of time. -/
structure Span where
  nanos : Int
  deriving DecidableEq, Repr

namespace Span

/-- The largest number of milliseconds that a count of 64 bits can hold. -/
def maxMillis : Int := 9223372036854775807

/-- A whole number of milliseconds. -/
def ofMillis (ms : Int) : Span := ⟨ms * 1000000⟩

/-- A whole number of milliseconds, if a span can be that long. -/
def ofMillis? (ms : Int) : Option Span :=
  if ms < -maxMillis then none else some (ofMillis ms)

/-- Whole seconds. -/
def ofSeconds (s : Int) : Span := ⟨s * 1000000000⟩

/-- The whole milliseconds, rounded toward zero. -/
def wholeMillis (d : Span) : Int := d.nanos.tdiv 1000000

/-- The whole seconds, rounded toward zero. -/
def wholeSeconds (d : Span) : Int := d.nanos.tdiv 1000000000

/-- The nanoseconds beyond the whole seconds, with the sign of the span. -/
def nanosBeyondSeconds (d : Span) : Int := d.nanos.tmod 1000000000

/-- The span of the same length in the other direction. -/
def neg (d : Span) : Span := ⟨-d.nanos⟩

instance : Neg Span := ⟨neg⟩

end Span

/-- The second lies in the calendar. -/
abbrev Calendar.Contains (seconds : Int) : Prop :=
  firstSecond ≤ seconds ∧ seconds ≤ lastSecond

/-- A second of the calendar, from 1970-01-01T00:00:00Z, and the nanoseconds within it, which
reach two seconds where a leap second follows. -/
@[ext] structure Instant where
  seconds : Int
  nanos : Nat
  inCalendar : Calendar.Contains seconds
  nanos_lt : nanos < 2000000000
  deriving DecidableEq, Repr

namespace Instant

/-- The instant with these parts, if there is one. -/
def of? (seconds : Int) (nanos : Nat) : Option Instant :=
  if h : Calendar.Contains seconds ∧ nanos < 2000000000 then
    some ⟨seconds, nanos, h.1, h.2⟩
  else none

/-- The first instant of the calendar. -/
def first : Instant := ⟨Calendar.firstSecond, 0, by decide, by decide⟩

/-- The last instant of the calendar that is in no leap second. -/
def last : Instant := ⟨Calendar.lastSecond, 999999999, by decide, by decide⟩

/-- The instant is in no leap second. -/
def isOrdinary (t : Instant) : Bool := t.nanos < 1000000000

/-- Seconds first, nanoseconds second. -/
def le (a b : Instant) : Bool :=
  a.seconds < b.seconds || (a.seconds == b.seconds && a.nanos ≤ b.nanos)

instance : LE Instant := ⟨fun a b => a.le b = true⟩

instance : LT Instant := ⟨fun a b => b.le a = false⟩

instance (a b : Instant) : Decidable (a ≤ b) := inferInstanceAs (Decidable (_ = true))

instance (a b : Instant) : Decidable (a < b) := inferInstanceAs (Decidable (_ = false))

theorem le_iff {a b : Instant} :
    a ≤ b ↔ a.seconds < b.seconds ∨ a.seconds = b.seconds ∧ a.nanos ≤ b.nanos := by
  show a.le b = true ↔ _
  simp [le]

theorem not_le {a b : Instant} : ¬ a ≤ b ↔ b < a :=
  Bool.not_eq_true _ ▸ Iff.rfl

theorem le_refl (a : Instant) : a ≤ a :=
  le_iff.2 (.inr ⟨rfl, Nat.le_refl _⟩)

theorem le_trans {a b c : Instant} (hab : a ≤ b) (hbc : b ≤ c) : a ≤ c := by
  rw [le_iff] at *
  omega

theorem le_total (a b : Instant) : a ≤ b ∨ b ≤ a := by
  simp only [le_iff]
  omega

theorem le_antisymm {a b : Instant} (hab : a ≤ b) (hba : b ≤ a) : a = b := by
  rw [le_iff] at *
  ext <;> omega

/-- Milliseconds since the epoch, rounded down; a leap second counts as the second after. -/
def epochMillis (t : Instant) : Int :=
  t.seconds * 1000 + (t.nanos / 1000000 : Nat)

/-- The instant at a whole number of milliseconds since the epoch. -/
def ofEpochMillis? (ms : Int) : Option Instant :=
  of? (ms / 1000) ((ms % 1000).toNat * 1000000)

/-- The instant after a span.  Ordinary instants are points on a line of nanoseconds.  An
instant in a leap second stays in it when the span does not lead out of it, and otherwise
moves as if from the end it leaves by. -/
def add? (t : Instant) (d : Span) : Option Instant :=
  let ds := d.wholeSeconds
  let dn := d.nanosBeyondSeconds
  if t.isOrdinary then normalise? t.seconds t.nanos
  else if 0 < ds ∨ (0 < dn ∧ 2000000000 - dn ≤ t.nanos) then
    normalise? t.seconds ((t.nanos : Int) - 1000000000)
  else if ds < 0 then normalise? (t.seconds + 1) ((t.nanos : Int) - 1000000000)
  else of? t.seconds ((t.nanos : Int) + dn).toNat
where
  /-- The span counted from a second and nanoseconds, brought into the form of an instant. -/
  normalise? (seconds nanos : Int) : Option Instant :=
    let n := nanos + d.nanosBeyondSeconds
    of? (seconds + d.wholeSeconds + n / 1000000000) (n % 1000000000).toNat

/-- The instant before a span. -/
def sub? (t : Instant) (d : Span) : Option Instant :=
  t.add? (-d)

/-- The second of the day of an instant. -/
def secondOfDay (t : Instant) : Int := t.seconds % 86400

/-- The span from one instant to another.  A leap second in between counts only if the clock
times of the day show it. -/
def since (a b : Instant) : Span :=
  let adjust : Int :=
    if b.secondOfDay < a.secondOfDay ∧ !b.isOrdinary then 1
    else if a.secondOfDay < b.secondOfDay ∧ !a.isOrdinary then -1
    else 0
  ⟨(a.seconds - b.seconds + adjust) * 1000000000 + ((a.nanos : Int) - b.nanos)⟩

/-- The instant with the digits below the millisecond cleared.  In a leap second at the very end
of the calendar there is nothing to round to, and the instant stays as it is. -/
def truncateToMillis (t : Instant) : Instant :=
  if Calendar.lastSecond = t.seconds ∧ !t.isOrdinary then t
  else ⟨t.seconds, t.nanos - t.nanos % 1000000, t.inCalendar, by have := t.nanos_lt; omega⟩

end Instant

end RouteTraffic
