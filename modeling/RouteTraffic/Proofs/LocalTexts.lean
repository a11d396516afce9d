import RouteTraffic.Chart
import RouteTraffic.Proofs.LocalClocks
import RouteTraffic.Proofs.TimestampFields

/-! # Local times in timestamps

A text without an offset is a date and a clock time, written in one of three ways
(`WallTime.WrittenAs`).  It is read as them and as no others (`WallTime.writtenAs_iff`), and it is
no text with an offset (`WallTime.WrittenAs.parseStrict_ne_ok`).

The clock of a zone shows what was written, to the millisecond, at the instant that the text stands
for, and a local time that it skips is refused (`parse_written`).  That is so in every regular zone
and every year, and on both sides of every change.  The one exception is the second in which a gap opens, which is taken
for an instant (`parse_of_opensGap`); and in the leap second past the end of the calendar the digits
below the millisecond stay. -/

namespace RouteTraffic.Instant

open Text Calendar

/-! ### Wall-clock times -/

/-- A date and a clock time.  The sixtieth second is the leap second after the fifty-ninth. -/
structure WallTime where
  date : Date
  hour : ℕ
  minute : ℕ
  second : ℕ
  nanos : ℕ
  date_isValid : date.isValid = true
  date_inCalendar : date.inCalendar = true
  hour_lt : hour < 24
  minute_lt : minute < 60
  second_le : second ≤ 60
  nanos_lt : nanos < 1000000000

namespace WallTime
variable (w : WallTime)

/-- One in a leap second, zero in an ordinary one. -/
def leap : ℕ := if w.second = 60 then 1 else 0

/-- The same by the second of the day. -/
def localTime : LocalTime :=
  ⟨w.date, w.hour * 3600 + w.minute * 60 + (w.second - w.leap), w.leap * 1000000000 + w.nanos⟩

/-- The clock time as two digits each for the hour, the minute and the second. -/
def clockText : List Char :=
  paddedDigits 2 w.hour ++ ':' :: paddedDigits 2 w.minute ++ ':' :: paddedDigits 2 w.second

/-- The ways in which a date and a clock time are written without an offset: with a letter between
them, or blanks or nothing, or to the minute. -/
inductive WrittenAs (cs : List Char) : Prop
  | letter {rest : List Char} (date : IsDate cs w.date ('T' :: rest))
      (clock : IsClock rest w.hour w.minute w.second w.nanos)
  | blanks {rest : List Char} (date : IsDate cs w.date rest)
      (clock : IsClock rest w.hour w.minute w.second w.nanos)
  | minutes {rest rest' : List Char} (date : IsDate cs w.date ('T' :: rest))
      (hour : IsNumber 2 rest w.hour (':' :: rest')) (minute : IsNumber 2 rest' w.minute [])
      (second : w.second = 0) (nanos : w.nanos = 0)

theorem of?_eq : LocalTime.of? w.date w.hour w.minute w.second w.nanos = some w.localTime := by
  rw [LocalTime.of?, if_pos]
  · rfl
  · simp [w.date_isValid, w.hour_lt, w.minute_lt, w.second_le]

end WallTime

theorem exists_wallTime {date : Date} {hour minute second nanos : ℕ} {t : LocalTime}
    (h : LocalTime.of? date hour minute second nanos = some t) (hcalendar : date.inCalendar = true)
    (hnanos : nanos < 1000000000) : ∃ w : WallTime, w.localTime = t ∧ w.date = date ∧
      w.hour = hour ∧ w.minute = minute ∧ w.second = second ∧ w.nanos = nanos := by
  have hfields : (date.isValid && decide (hour < 24) && decide (minute < 60) &&
      decide (second ≤ 60)) = true := by
    by_contra hnone
    rw [LocalTime.of?, if_neg hnone] at h
    cases h
  simp only [Bool.and_eq_true, decide_eq_true_eq] at hfields
  obtain ⟨⟨⟨hvalid, hhour⟩, hminute⟩, hsecond⟩ := hfields
  let w : WallTime :=
    ⟨date, hour, minute, second, nanos, hvalid, hcalendar, hhour, hminute, hsecond, hnanos⟩
  exact ⟨w, Option.some.inj (w.of?_eq.symm.trans h), rfl, rfl, rfl, rfl, rfl⟩

/-! ### The layouts -/

theorem localSeconds?_eq_some_iff {sep : Separator} {cs : List Char} {t : LocalTime} :
    localSeconds? sep cs = some t ↔ ∃ w : WallTime, w.localTime = t ∧ ∃ rest rest',
      IsDate cs w.date rest ∧ sep.skip? rest = some rest' ∧
        IsClock rest' w.hour w.minute w.second w.nanos := by
  unfold localSeconds?
  simp only [Option.bind_eq_bind, Option.bind_eq_some_iff, Prod.exists]
  constructor
  · rintro ⟨date, cs₁, hdate, cs₂, hskip, hour, cs₃, hhour, cs₄, hcolon, minute, cs₅, hminute, cs₆,
      hcolon', second, cs₇, hsecond, nanos, cs₈, hfraction, h⟩
    obtain rfl := char?_eq_some_iff.mp hcolon
    obtain rfl := char?_eq_some_iff.mp hcolon'
    split_ifs at h with hend
    obtain ⟨hnil, hcalendar⟩ := Bool.and_eq_true_iff.mp hend
    obtain rfl : cs₈ = [] := of_decide_eq_true hnil
    obtain ⟨w, rfl, rfl, rfl, rfl, rfl, rfl⟩ := exists_wallTime h hcalendar (fraction?_lt hfraction)
    exact ⟨w, rfl, cs₁, cs₂, date?_eq_some_iff.mp hdate, hskip, cs₇,
      ⟨cs₄, cs₆, numberUpTo?_eq_some_iff.mp hhour, numberUpTo?_eq_some_iff.mp hminute,
        numberUpTo?_eq_some_iff.mp hsecond⟩,
      optionalFraction_eq_ok_iff.mp (fraction?_eq_some_iff.mp hfraction)⟩
  · rintro ⟨w, rfl, rest, rest', hdate, hskip, cs₃, ⟨cs₁, cs₂, hhour, hminute, hsecond⟩, hfraction⟩
    refine ⟨w.date, rest, date?_eq_some_iff.mpr hdate, rest', hskip, w.hour, _,
      numberUpTo?_eq_some_iff.mpr hhour, cs₁, char?_eq_some_iff.mpr rfl, w.minute, _,
      numberUpTo?_eq_some_iff.mpr hminute, cs₂, char?_eq_some_iff.mpr rfl, w.second, cs₃,
      numberUpTo?_eq_some_iff.mpr hsecond, w.nanos, [],
      fraction?_eq_some_iff.mpr (optionalFraction_eq_ok_iff.mpr hfraction), ?_⟩
    rw [if_pos (by simp [w.date_inCalendar]), w.of?_eq]

theorem localMinutes?_eq_some_iff {cs : List Char} {t : LocalTime} :
    localMinutes? cs = some t ↔ ∃ w : WallTime, w.localTime = t ∧ ∃ rest rest',
      IsDate cs w.date ('T' :: rest) ∧ IsNumber 2 rest w.hour (':' :: rest') ∧
        IsNumber 2 rest' w.minute [] ∧ w.second = 0 ∧ w.nanos = 0 := by
  unfold localMinutes?
  simp only [Option.bind_eq_bind, Option.bind_eq_some_iff, Prod.exists]
  constructor
  · rintro ⟨date, cs₁, hdate, cs₂, hletter, hour, cs₃, hhour, cs₄, hcolon, minute, cs₅, hminute, h⟩
    obtain rfl := char?_eq_some_iff.mp hletter
    obtain rfl := char?_eq_some_iff.mp hcolon
    split_ifs at h with hend
    obtain ⟨hnil, hcalendar⟩ := Bool.and_eq_true_iff.mp hend
    obtain rfl : cs₅ = [] := of_decide_eq_true hnil
    obtain ⟨w, rfl, rfl, rfl, rfl, hsecond, hnanos⟩ := exists_wallTime h hcalendar (by decide)
    exact ⟨w, rfl, cs₂, cs₄, date?_eq_some_iff.mp hdate, numberUpTo?_eq_some_iff.mp hhour,
      numberUpTo?_eq_some_iff.mp hminute, hsecond, hnanos⟩
  · rintro ⟨w, rfl, rest, rest', hdate, hhour, hminute, hsecond, hnanos⟩
    refine ⟨w.date, _, date?_eq_some_iff.mpr hdate, rest, char?_eq_some_iff.mpr rfl, w.hour, _,
      numberUpTo?_eq_some_iff.mpr hhour, rest', char?_eq_some_iff.mpr rfl, w.minute, [],
      numberUpTo?_eq_some_iff.mpr hminute, ?_⟩
    have hof := w.of?_eq
    rw [hsecond, hnanos] at hof
    rw [if_pos (by simp [w.date_inCalendar]), hof]

namespace WallTime

theorem eq_of_localTime {w w' : WallTime} (h : w.localTime = w'.localTime) : w = w' := by
  obtain ⟨date, hour, minute, second, nanos, _, _, hhour, hminute, hsecond, hnanos⟩ := w
  obtain ⟨date', hour', minute', second', nanos', _, _, hhour', hminute', hsecond', hnanos'⟩ := w'
  simp only [localTime, leap, LocalTime.mk.injEq] at h
  obtain ⟨hdate, hday, hnano⟩ := h
  simp only [WallTime.mk.injEq]
  refine ⟨hdate, ?_⟩
  split_ifs at hday hnano <;> omega

variable {w : WallTime} {cs : List Char}

theorem localSeconds?_letterT : localSeconds? .letterT cs = some w.localTime ↔
    ∃ rest, IsDate cs w.date ('T' :: rest) ∧ IsClock rest w.hour w.minute w.second w.nanos := by
  rw [localSeconds?_eq_some_iff]
  constructor
  · rintro ⟨w', hw', rest, rest', hdate, hskip, hclock⟩
    obtain rfl := eq_of_localTime hw'
    obtain rfl : rest = 'T' :: rest' := char?_eq_some_iff.mp hskip
    exact ⟨rest', hdate, hclock⟩
  · rintro ⟨rest, hdate, hclock⟩
    exact ⟨w, rfl, _, rest, hdate, by rw [Separator.skip?, char?, if_pos rfl], hclock⟩

theorem localSeconds?_blanks : localSeconds? .blanks cs = some w.localTime ↔
    ∃ rest, IsDate cs w.date rest ∧ IsClock rest w.hour w.minute w.second w.nanos := by
  have hclock_iff (rest : List Char) : IsClock (trimStart rest) w.hour w.minute w.second w.nanos ↔
      IsClock rest w.hour w.minute w.second w.nanos := by
    simp only [IsClock, isSeconds_trimStart]
  rw [localSeconds?_eq_some_iff]
  constructor
  · rintro ⟨w', hw', rest, rest', hdate, hskip, hclock⟩
    obtain rfl := eq_of_localTime hw'
    obtain rfl : trimStart rest = rest' := Option.some.inj hskip
    exact ⟨rest, hdate, (hclock_iff rest).mp hclock⟩
  · rintro ⟨rest, hdate, hclock⟩
    exact ⟨w, rfl, rest, _, hdate, rfl, (hclock_iff rest).mpr hclock⟩

/-- A letter in front of the clock time is not taken for blanks, and a time to the minute is not
one to the second, so a text is read in the way in which it is written. -/
theorem WrittenAs.localTime?_eq (h : w.WrittenAs cs) : localTime? cs = some w.localTime := by
  have hnone {sep : Separator} (hsep : ∀ w' : WallTime, localSeconds? sep cs ≠ some w'.localTime) :
      localSeconds? sep cs = none :=
    Option.eq_none_iff_forall_ne_some.mpr fun t ht => by
      obtain ⟨w', rfl, -⟩ := localSeconds?_eq_some_iff.mp ht
      exact hsep w' ht
  cases h with
  | letter date clock =>
      rw [localTime?, localSeconds?_letterT.mpr ⟨_, date, clock⟩]
      rfl
  | @blanks rest date clock =>
      have hletter : localSeconds? .letterT cs = none := hnone fun w' hw' => by
        obtain ⟨rest', hdate', -⟩ := localSeconds?_letterT.mp hw'
        obtain ⟨-, rfl⟩ := date.unique hdate'
        obtain ⟨_, hseconds, -⟩ := clock
        exact hseconds.not_letter rfl rfl
      rw [localTime?, hletter, localSeconds?_blanks.mpr ⟨rest, date, clock⟩]
      rfl
  | @minutes rest rest' date hour minute second nanos =>
      have hletter : localSeconds? .letterT cs = none := hnone fun w' hw' => by
        obtain ⟨rest'', hdate', _, ⟨cs₁, cs₂, hhour, hminute, -⟩, -⟩ :=
          localSeconds?_letterT.mp hw'
        obtain rfl : rest = rest'' := (List.cons.inj (date.unique hdate').2).2
        obtain rfl : rest' = cs₁ := (List.cons.inj (hour.unique hhour).2).2
        cases (minute.unique hminute).2
      have hblanks : localSeconds? .blanks cs = none := hnone fun w' hw' => by
        obtain ⟨rest'', hdate', _, hseconds, -⟩ := localSeconds?_blanks.mp hw'
        obtain ⟨-, rfl⟩ := date.unique hdate'
        exact hseconds.not_letter rfl rfl
      rw [localTime?, hletter, hblanks,
        localMinutes?_eq_some_iff.mpr ⟨w, rfl, rest, rest', date, hour, minute, second, nanos⟩]
      rfl

theorem exists_writtenAs {t : LocalTime} (h : localTime? cs = some t) :
    ∃ w : WallTime, w.localTime = t ∧ w.WrittenAs cs := by
  unfold localTime? at h
  cases hletter : localSeconds? .letterT cs with
  | some u =>
      obtain ⟨w, rfl, -⟩ := localSeconds?_eq_some_iff.mp hletter
      obtain ⟨rest, hdate, hclock⟩ := localSeconds?_letterT.mp hletter
      rw [hletter] at h
      exact ⟨w, Option.some.inj h, .letter hdate hclock⟩
  | none =>
      rw [hletter] at h
      cases hblanks : localSeconds? .blanks cs with
      | some u =>
          obtain ⟨w, rfl, -⟩ := localSeconds?_eq_some_iff.mp hblanks
          obtain ⟨rest, hdate, hclock⟩ := localSeconds?_blanks.mp hblanks
          rw [hblanks] at h
          exact ⟨w, Option.some.inj h, .blanks hdate hclock⟩
      | none =>
          rw [hblanks] at h
          obtain ⟨w, rfl, rest, rest', hdate, hhour, hminute, hsecond, hnanos⟩ :=
            localMinutes?_eq_some_iff.mp h
          exact ⟨w, rfl, .minutes hdate hhour hminute hsecond hnanos⟩

/-- **A text is read as the date and the clock time that are written in it.** -/
theorem writtenAs_iff : w.WrittenAs cs ↔ localTime? cs = some w.localTime := by
  refine ⟨WrittenAs.localTime?_eq, fun h => ?_⟩
  obtain ⟨w', hw', hwritten⟩ := exists_writtenAs h
  exact eq_of_localTime hw' ▸ hwritten

theorem WrittenAs.parseStrict_ne_ok (h : w.WrittenAs cs) (t : Instant) :
    parseStrict cs ≠ .ok t := by
  intro ht
  obtain ⟨date, separator, rest, hour, minute, second, rest', hseparator, hdate, hseconds, hend⟩ :=
    parseStrict_isSeconds ht
  cases h with
  | letter date' clock =>
      obtain ⟨rest'', hseconds', hfraction⟩ := clock
      obtain rfl := (List.cons.inj (date'.unique hdate).2).2
      obtain rfl := hseconds'.unique hseconds
      exact hend _ hfraction
  | blanks date' clock =>
      obtain ⟨rest'', hseconds', hfraction⟩ := clock
      obtain ⟨-, rfl⟩ := date'.unique hdate
      rcases hseparator with rfl | rfl | rfl
      · exact hseconds'.not_letter rfl rfl
      · exact hseconds'.not_letter rfl rfl
      · rw [← isSeconds_trimStart] at hseconds hseconds'
        obtain rfl := hseconds'.unique hseconds
        exact hend _ hfraction
  | minutes date' hour' minute' =>
      obtain ⟨cs₁, cs₂, hhour, hminute, -⟩ := hseconds
      obtain rfl := (List.cons.inj (date'.unique hdate).2).2
      obtain rfl := (List.cons.inj (hour'.unique hhour).2).2
      cases (minute'.unique hminute).2

theorem WrittenAs.parse_eq {text : String} (h : w.WrittenAs (trim text.toList)) (z : Zone) :
    parse z text = match z.instantOfLocal? w.localTime.seconds w.localTime.nanos with
      | some t => .ok t.truncateToMillis
      | none => .error .skippedLocalTime := by
  unfold parse
  dsimp only
  split
  · rename_i t ht
    exact absurd ht (h.parseStrict_ne_ok t)
  · cases hread : z.instantOfLocal? w.localTime.seconds w.localTime.nanos with
    | none => simp only [h.localTime?_eq, hread]
    | some t => simp only [h.localTime?_eq, hread]

theorem secondOfDay_lt (w : WallTime) : w.localTime.secondOfDay < 86400 := by
  have := w.hour_lt
  have := w.minute_lt
  have := w.second_le
  simp only [localTime, leap]
  split_ifs <;> omega

theorem leap_le (w : WallTime) : w.leap ≤ 1 := by
  unfold leap
  split_ifs <;> decide

theorem localTime_nanos_lt (w : WallTime) : w.localTime.nanos < 2000000000 := by
  have := w.leap_le
  have := w.nanos_lt
  simp only [localTime]
  omega

theorem seconds_split (w : WallTime) : w.localTime.seconds / 86400 = w.date.toDayNumber ∧
    (w.localTime.seconds % 86400).toNat = w.localTime.secondOfDay := by
  have hday := w.secondOfDay_lt
  have hseconds : w.localTime.seconds =
      w.date.toDayNumber * 86400 + w.localTime.secondOfDay := rfl
  omega

theorem clockText_eq (w : WallTime) :
    Instant.clockText w.localTime.secondOfDay w.leap = w.clockText := by
  have hminute := w.minute_lt
  have hsecond := w.second_le
  have hleap : w.leap = 0 ∧ w.second < 60 ∨ w.leap = 1 ∧ w.second = 60 := by
    unfold leap
    split_ifs <;> omega
  have hhours : w.localTime.secondOfDay / 3600 = w.hour := by
    simp only [localTime]
    omega
  have hminutes : w.localTime.secondOfDay / 60 % 60 = w.minute := by
    simp only [localTime]
    omega
  have hseconds : w.localTime.secondOfDay % 60 + w.leap = w.second := by
    simp only [localTime]
    omega
  rw [Instant.clockText, hhours, hminutes, hseconds, clockText]

theorem year_mem (w : WallTime) : firstYear ≤ yearOfSeconds w.localTime.seconds ∧
    yearOfSeconds w.localTime.seconds ≤ lastYear := by
  have hyear : (Date.ofDayNumber w.date.toDayNumber).year = w.date.year := by
    rw [Date.ofDayNumber_toDayNumber w.date_isValid]
  have hcalendar := w.date_inCalendar
  rw [Date.inCalendar, ← hyear, Bool.and_eq_true, decide_eq_true_eq, decide_eq_true_eq] at hcalendar
  rw [yearOfSeconds, w.seconds_split.1]
  exact hcalendar

end WallTime

/-! ### Back to local time -/

/-- The date and the second of the day that the clock of a zone shows. -/
def shownIn (t : Instant) (z : Zone) : LocalTime :=
  ⟨Date.ofDayNumber (z.wallClock t / 86400), (z.wallClock t % 86400).toNat, t.nanos⟩

/-- The local time without the digits below the millisecond. -/
def LocalTime.toMillis (t : LocalTime) : LocalTime :=
  { t with nanos := t.nanos - t.nanos % 1000000 }

theorem shownIn_of_wallClock {t : Instant} {z : Zone} {w : WallTime}
    (h : z.wallClock t = w.localTime.seconds) :
    t.shownIn z = ⟨w.date, w.localTime.secondOfDay, t.nanos⟩ := by
  rw [shownIn, h, w.seconds_split.1, w.seconds_split.2,
    Date.ofDayNumber_toDayNumber w.date_isValid]

theorem clockTime_of_wallClock {t : Instant} {z : Zone} {w : WallTime}
    (h : z.wallClock t = w.localTime.seconds) (hleap : t.leapSecond = w.leap) :
    t.clockTime z = String.ofList w.clockText := by
  rw [clockTime, h, w.seconds_split.2, hleap, w.clockText_eq]

theorem wallClock_truncateToMillis (t : Instant) (z : Zone) :
    z.wallClock t.truncateToMillis = z.wallClock t := by
  rw [Zone.wallClock, Zone.wallClock, truncateToMillis_seconds]

theorem clockTime_truncateToMillis (t : Instant) (z : Zone) :
    t.truncateToMillis.clockTime z = t.clockTime z := by
  have hleap : t.truncateToMillis.leapSecond = t.leapSecond := by
    rw [leapSecond, leapSecond, truncateToMillis_nanos]
    split_ifs
    · rfl
    · omega
  rw [clockTime, clockTime, wallClock_truncateToMillis, hleap]

/-! ### What is written and what is shown -/

section
variable {z : Zone} (hz : z.IsRegular) {text : String} {w : WallTime}
  (hw : w.WrittenAs (trim text.toList))
include hz hw

theorem exists_parse (hshown : ∃ u : Instant, z.wallClock u = w.localTime.seconds) :
    ∃ t, parse z text = .ok t := by
  obtain ⟨u, hu⟩ := hshown
  obtain ⟨t, ht⟩ := hz.exists_instantOfLocal? u w.localTime_nanos_lt
  rw [hu] at ht
  exact ⟨t.truncateToMillis, by rw [hw.parse_eq z, ht]⟩

/-- The clock shows the end of the gap for the text of the second in which the gap opens. -/
theorem parse_of_opensGap (hgap : z.OpensGap w.localTime.seconds) :
    (∀ u : Instant, z.wallClock u ≠ w.localTime.seconds) ∧ ∃ t, parse z text = .ok t ∧
      ∃ d ∈ z.daylight, z.wallClock t = w.localTime.seconds + (d.offset - z.standard) := by
  obtain ⟨d, hd, hstart, hstop⟩ := hgap
  obtain ⟨hnever, t, ht, hclock⟩ := hz.exists_instantOfLocal?_of_opensGap hd hstart hstop
    w.year_mem w.localTime_nanos_lt
  refine ⟨hnever, t.truncateToMillis, by rw [hw.parse_eq z, ht], d, hd, ?_⟩
  rw [wallClock_truncateToMillis, hclock]

variable (hgap : ¬ z.OpensGap w.localTime.seconds)
include hgap

theorem parse_of_skipped (hskipped : ∀ u : Instant, z.wallClock u ≠ w.localTime.seconds) :
    parse z text = .error .skippedLocalTime := by
  have hnone : z.instantOfLocal? w.localTime.seconds w.localTime.nanos = none :=
    Option.eq_none_iff_forall_ne_some.mpr fun t ht =>
      hskipped t (hz.wallClock_of_instantOfLocal? ht hgap)
  rw [hw.parse_eq z, hnone]

theorem shownIn_of_parse {t : Instant} (ht : parse z text = .ok t) :
    t.shownIn z = (if t.IsPastEnd then w.localTime else w.localTime.toMillis) ∧
      t.clockTime z = String.ofList w.clockText := by
  rw [hw.parse_eq z] at ht
  split at ht
  · rename_i u hu
    obtain rfl : u.truncateToMillis = t := Except.ok.inj ht
    have hclock := hz.wallClock_of_instantOfLocal? hu hgap
    have hclock' : z.wallClock u.truncateToMillis = w.localTime.seconds :=
      (wallClock_truncateToMillis u z).trans hclock
    obtain ⟨offset, -, hof⟩ := Option.bind_eq_some_iff.mp hu
    have hnanos : u.nanos = w.leap * 1000000000 + w.nanos := (of?_eq_some_iff.mp hof).2
    have hleap : u.leapSecond = w.leap := by
      have hfraction := w.nanos_lt
      rw [leapSecond]
      omega
    constructor
    · rw [shownIn_of_wallClock hclock', truncateToMillis_nanos, hnanos]
      simp only [isPastEnd_truncateToMillis]
      split_ifs <;> rfl
    · rw [clockTime_truncateToMillis, clockTime_of_wallClock hclock hleap]
  · cases ht

end

/-- **The clock shows what was written.**  If a regular zone ever shows a local time, the text of
that time stands for an instant, at which the clock shows the same date and time, cut to the
millisecond unless the calendar has ended, and an axis shows its hours, minutes and seconds.  If the
clock skips the local time, the text is refused.  The listed rules are those of regular zones. -/
theorem parse_written {text : String} {w : WallTime} (hw : w.WrittenAs (trim text.toList)) :
    (∀ z : Zone, z.IsRegular → ¬ z.OpensGap w.localTime.seconds →
        ((∃ u : Instant, z.wallClock u = w.localTime.seconds) → ∃ t, parse z text = .ok t) ∧
          ((∀ u : Instant, z.wallClock u ≠ w.localTime.seconds) →
            parse z text = .error .skippedLocalTime) ∧
          ∀ t, parse z text = .ok t →
            t.shownIn z = (if t.IsPastEnd then w.localTime else w.localTime.toMillis) ∧
              Chart.tick z text = String.ofList w.clockText) ∧
      ∀ rule ∈ Zone.rules, ∃ z, Zone.ofPosix? rule = some z ∧ z.IsRegular := by
  refine ⟨fun z hz hgap => ⟨exists_parse hz hw, parse_of_skipped hz hw hgap, fun t ht => ?_⟩,
    fun rule hrule => Zone.isRegular_of_mem_rules hrule⟩
  obtain ⟨hshown, hclock⟩ := shownIn_of_parse hz hw hgap ht
  refine ⟨hshown, ?_⟩
  rw [Chart.tick, ht]
  exact hclock

/-- In the hour that the clock repeats, written with a blank and decimals. -/
theorem parse_written_repeatedHour :
    ∃ z, Zone.ofPosix? "NZST-12NZDT,M9.5.0,M4.1.0/3" = some z ∧
      ∃ t, parse z "2025-04-06 02:30:00.123456789" = .ok t ∧
        t.shownIn z = ⟨⟨2025, 4, 6⟩, 9000, 123000000⟩ ∧
          Chart.tick z "2025-04-06 02:30:00.123456789" = "02:30:00" := by
  let z : Zone := ⟨43200, some ⟨46800, ⟨9, 5, 0, 7200⟩, ⟨4, 1, 0, 10800⟩⟩⟩
  let w : WallTime := ⟨⟨2025, 4, 6⟩, 2, 30, 0, 123456789, by decide, by decide, by decide,
    by decide, by decide, by decide⟩
  have hz : Zone.ofPosix? "NZST-12NZDT,M9.5.0,M4.1.0/3" = some z := by decide +kernel
  have hw : w.WrittenAs (trim "2025-04-06 02:30:00.123456789".toList) :=
    WallTime.writtenAs_iff.mpr (by decide +kernel)
  have hgap : ¬ z.OpensGap w.localTime.seconds := by
    rintro ⟨d, hd, hstart, -⟩
    cases hd
    revert hstart
    decide +kernel
  obtain ⟨hwritten, hrules⟩ := parse_written hw
  obtain ⟨z', hz', hregular⟩ := hrules "NZST-12NZDT,M9.5.0,M4.1.0/3" (by decide)
  obtain rfl : z = z' := Option.some.inj (hz.symm.trans hz')
  obtain ⟨hread, -, hshown⟩ := hwritten z hregular hgap
  obtain ⟨t, ht⟩ := hread
    ⟨⟨1743863400, 0, by decide +kernel, by decide⟩, by decide +kernel⟩
  obtain ⟨hlocal, htick⟩ := hshown t ht
  have hend : ¬ t.IsPastEnd := by
    intro hend
    rw [if_pos hend] at hlocal
    have hnanos : t.nanos = w.localTime.nanos := by rw [← hlocal, shownIn]
    have hleap := hend.2
    rw [isOrdinary, hnanos] at hleap
    revert hleap
    decide +kernel
  rw [if_neg hend] at hlocal
  exact ⟨z, hz, t, ht, hlocal.trans (by decide +kernel), htick.trans (by decide +kernel)⟩

/-- The clock of this zone goes from one second before two o'clock to three o'clock, but the text of
two o'clock is not refused: an axis shows three o'clock for it. -/
theorem parse_gapOpening :
    ∃ z, Zone.ofPosix? "EST5EDT,M3.2.0,M11.1.0" = some z ∧
      ∃ t, parse z "2025-03-09T02:00:00" = .ok t ∧
        t.shownIn z = ⟨⟨2025, 3, 9⟩, 10800, 0⟩ ∧
          Chart.tick z "2025-03-09T02:00:00" = "03:00:00" ∧
            parse z "2025-03-09T02:00:01" = .error .skippedLocalTime := by
  refine ⟨⟨-18000, some ⟨-14400, ⟨3, 2, 0, 7200⟩, ⟨11, 1, 0, 7200⟩⟩⟩, by decide +kernel,
    ⟨1741503600, 0, by decide, by decide⟩, ?_⟩
  decide +kernel

end RouteTraffic.Instant
