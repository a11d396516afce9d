import RouteTraffic.Calendar.Zone
import RouteTraffic.Proofs.CivilDates
import RouteTraffic.Proofs.Timeline

/-! # Clocks of zones

A zone is regular if it changes its clock twice a year, forward and back, more than a month apart
and not in January or December (`Zone.IsRegular`).  What its clock shows and what is read off it are
then inverse to each other: a local time is read in the offset that holds at the instant it is read
as (`Zone.offsetAt_of_offsetOfLocal?`), and it is refused only if the clock never shows it
(`Zone.ne_of_offsetOfLocal?_eq_none`).  One second of the year is read although it is skipped, the
first one of a summer that ends in the same year (`Zone.OpensGap`).

Rules are looked up by the year, and a local time may lie in another year than its instant.  Both
are then close to New Year, where the offset is the same in every year
(`Zone.offsetAt_of_nearNewYear`, `Zone.offsetOfLocal?_of_nearNewYear`). -/

namespace RouteTraffic.Calendar

/-! ### Regular zones -/

/-- The rule names a day of a month from February to November, and a time of that day. -/
structure ChangeRule.IsRegular (r : ChangeRule) : Prop where
  month : 2 ≤ r.month ∧ r.month ≤ 11
  week : 1 ≤ r.week ∧ r.week ≤ 5
  weekday : r.weekday < 7
  timeOfDay : 0 ≤ r.timeOfDay ∧ r.timeOfDay ≤ 86400

/-- Daylight saving time is ahead of standard time, and a whole month lies between its changes. -/
structure Daylight.IsRegular (d : Daylight) (standard : ℤ) : Prop where
  start : d.start.IsRegular
  stop : d.stop.IsRegular
  apart : d.start.month + 2 ≤ d.stop.month ∨ d.stop.month + 2 ≤ d.start.month
  ahead : standard < d.offset
  offset : d.offset < 86400

/-- Clocks are less than a day from UTC. -/
structure Zone.IsRegular (z : Zone) : Prop where
  standard : -86400 < z.standard ∧ z.standard < 86400
  daylight : ∀ d ∈ z.daylight, d.IsRegular z.standard

/-! ### Changes in a year -/

theorem daysBeforeMonth_succ {year : ℤ} {m : ℕ} (h : 1 ≤ m) (h' : m ≤ 12) :
    daysBeforeMonth (isLeap year) (m + 1) =
      daysBeforeMonth (isLeap year) m + daysInMonth year m := by
  have hall : ∀ leap, ∀ m < 13, 1 ≤ m → daysBeforeMonth leap (m + 1) =
      daysBeforeMonth leap m + (monthLengths leap).getD (m - 1) 0 := by decide
  rw [hall _ m (by omega) h, daysInMonth, if_neg (by omega)]

theorem le_daysInMonth {year : ℤ} {m : ℕ} (h : 1 ≤ m) (h' : m ≤ 12) :
    28 ≤ daysInMonth year m := by
  have hall : ∀ leap, ∀ i < 12, 28 ≤ (monthLengths leap).getD i 0 := by decide
  rw [daysInMonth, if_neg (by omega)]
  exact hall _ (m - 1) (by omega)

namespace ChangeRule.IsRegular
variable {r : ChangeRule} (h : r.IsRegular) (year : ℤ)
include h

theorem dayNumber_mem :
    daysBeforeYear year + daysBeforeMonth (isLeap year) r.month ≤ r.dayNumber year ∧
      r.dayNumber year < daysBeforeYear year + daysBeforeMonth (isLeap year) (r.month + 1) := by
  obtain ⟨⟨hmonth, hmonth'⟩, ⟨hweek, hweek'⟩, -, -⟩ := h
  rw [daysBeforeMonth_succ (by omega) (by omega)]
  have hlength : 28 ≤ daysInMonth year r.month := le_daysInMonth (by omega) (by omega)
  have hfirst : Date.toDayNumber ⟨year, r.month, 1⟩ =
      daysBeforeYear year + daysBeforeMonth (isLeap year) r.month := by
    simp [Date.toDayNumber]
  simp only [dayNumber, hfirst]
  split_ifs <;> omega

/-- January and December have no change. -/
theorem localTime_mem :
    (daysBeforeYear year + 31) * 86400 ≤ r.localTime year ∧
      r.localTime year ≤ (daysBeforeYear (year + 1) - 31) * 86400 := by
  have hall : ∀ leap, ∀ m < 12, 2 ≤ m → 31 ≤ daysBeforeMonth leap m ∧
      daysBeforeMonth leap (m + 1) + 31 ≤ if leap then 366 else 365 := by decide
  obtain ⟨hbefore, hafter⟩ := hall (isLeap year) r.month (by have := h.month; omega) h.month.1
  obtain ⟨hday, hday'⟩ := h.dayNumber_mem year
  obtain ⟨htime, htime'⟩ := h.timeOfDay
  rw [daysBeforeYear_succ, daysInYear, localTime]
  split_ifs at hafter ⊢ <;> omega

theorem localTime_add_le {later : ChangeRule} (hlater : later.IsRegular)
    (hmonth : r.month + 2 ≤ later.month) :
    r.localTime year + 28 * 86400 ≤ later.localTime year := by
  have hall : ∀ leap, ∀ m < 12, ∀ n < m, n + 2 ≤ m →
      daysBeforeMonth leap (n + 1) + 28 ≤ daysBeforeMonth leap m := by decide
  have hmonths := hall (isLeap year) later.month (by have := hlater.month; omega) r.month
    (by omega) hmonth
  obtain ⟨-, hday⟩ := h.dayNumber_mem year
  obtain ⟨hday', -⟩ := hlater.dayNumber_mem year
  obtain ⟨-, htime⟩ := h.timeOfDay
  obtain ⟨htime', -⟩ := hlater.timeOfDay
  rw [localTime, localTime]
  omega

end ChangeRule.IsRegular

namespace Zone.IsRegular

section
variable {z : Zone} (hz : z.IsRegular) {d : Daylight} (hd : z.daylight = some d)
include hz hd

/-- The changes of a year, in their order: a month apart, and a month from the ends of the year. -/
theorem changes (year : ℤ) :
    let start := d.start.localTime year
    let stop := d.stop.localTime year
    let first := daysBeforeYear year * 86400
    let next := daysBeforeYear (year + 1) * 86400
    z.standard < d.offset ∧ -86400 < z.standard ∧ d.offset < 86400 ∧
      (d.start.month < d.stop.month ∧ first + 31 * 86400 ≤ start ∧ start + 28 * 86400 ≤ stop ∧
          stop + 31 * 86400 ≤ next ∨
        d.stop.month < d.start.month ∧ first + 31 * 86400 ≤ stop ∧ stop + 28 * 86400 ≤ start ∧
          start + 31 * 86400 ≤ next) := by
  have hregular := hz.daylight d hd
  obtain ⟨hstart, hstart'⟩ := hregular.start.localTime_mem year
  obtain ⟨hstop, hstop'⟩ := hregular.stop.localTime_mem year
  refine ⟨hregular.ahead, hz.standard.1, hregular.offset, ?_⟩
  rcases hregular.apart with hmonth | hmonth
  · have := hregular.start.localTime_add_le year hregular.stop hmonth
    exact Or.inl (by omega)
  · have := hregular.stop.localTime_add_le year hregular.start hmonth
    exact Or.inr (by omega)

/-! ### Offsets -/

/-- Daylight saving time holds from its start to its end, or else up to its end and from its
start. -/
theorem offsetAt_cases (u : ℤ) :
    let start := d.start.localTime (yearOfSeconds u)
    let stop := d.stop.localTime (yearOfSeconds u)
    z.offsetAt u = z.standard ∧ (start < stop → u + z.standard < start ∨ stop ≤ u + d.offset) ∧
        (stop < start → stop ≤ u + d.offset ∧ u + z.standard < start) ∨
      z.offsetAt u = d.offset ∧ (start < stop → start ≤ u + z.standard ∧ u + d.offset < stop) ∧
        (stop < start → u + d.offset < stop ∨ start ≤ u + z.standard) := by
  have hchanges := hz.changes hd (yearOfSeconds u)
  simp only [offsetAt, hd]
  generalize d.start.localTime (yearOfSeconds u) = start at *
  generalize d.stop.localTime (yearOfSeconds u) = stop at *
  by_cases hlt : start - z.standard < stop - d.offset
  · simp only [if_pos hlt, Bool.and_eq_true, decide_eq_true_eq]
    split_ifs <;> omega
  · simp only [if_neg hlt, Bool.or_eq_true, decide_eq_true_eq]
    split_ifs <;> omega

/-- In the hour that the clock repeats, standard time is read. -/
theorem offsetOfLocal?_cases (s : ℤ) :
    let start := d.start.localTime (yearOfSeconds s)
    let stop := d.stop.localTime (yearOfSeconds s)
    let change := d.offset - z.standard
    z.offsetOfLocal? s = some z.standard ∧ (start < stop → s ≤ start ∨ stop ≤ s + change) ∧
        (stop < start → stop ≤ s + change ∧ s < start) ∨
      z.offsetOfLocal? s = some d.offset ∧
        (start < stop → start + change ≤ s ∧ s + change < stop) ∧
        (stop < start → s + change < stop ∨ start + change ≤ s) ∨
      z.offsetOfLocal? s = none ∧ start ≤ s ∧ s < start + change ∧
        (start < stop → start < s) := by
  have hchanges := hz.changes hd (yearOfSeconds s)
  simp only [offsetOfLocal?, hd]
  generalize d.start.localTime (yearOfSeconds s) = start at *
  generalize d.stop.localTime (yearOfSeconds s) = stop at *
  split_ifs <;> simp only [Option.some.injEq, true_and, false_and, or_false] <;> omega

end

end Zone.IsRegular

/-! ### New Year -/

/-- The seconds of the first and of the last week of a year. -/
def NearNewYear (seconds : ℤ) : Prop :=
  seconds < (daysBeforeYear (yearOfSeconds seconds) + 7) * 86400 ∨
    (daysBeforeYear (yearOfSeconds seconds + 1) - 7) * 86400 ≤ seconds

theorem yearOfSeconds_bounds (seconds : ℤ) :
    daysBeforeYear (yearOfSeconds seconds) * 86400 ≤ seconds ∧
      seconds < daysBeforeYear (yearOfSeconds seconds + 1) * 86400 := by
  obtain ⟨hle, hlt⟩ := yearOfDay_bounds (seconds / 86400)
  rw [yearOfSeconds]
  omega

theorem nearNewYear_of_lt {s u : ℤ} (h : yearOfSeconds s < yearOfSeconds u)
    (hclose : u ≤ s + 7 * 86400) : NearNewYear s ∧ NearNewYear u := by
  obtain ⟨-, hs⟩ := yearOfSeconds_bounds s
  obtain ⟨hu, -⟩ := yearOfSeconds_bounds u
  have := daysBeforeYear_mono (Int.add_one_le_of_lt h)
  exact ⟨Or.inr (by omega), Or.inl (by omega)⟩

/-- Seconds that are close to each other lie in one year, or else New Year comes between them. -/
theorem year_eq_or_nearNewYear {s u : ℤ} (h : s ≤ u + 7 * 86400) (h' : u ≤ s + 7 * 86400) :
    yearOfSeconds s = yearOfSeconds u ∨ NearNewYear s ∧ NearNewYear u := by
  rcases lt_trichotomy (yearOfSeconds s) (yearOfSeconds u) with hlt | heq | hgt
  · exact Or.inr (nearNewYear_of_lt hlt h')
  · exact Or.inl heq
  · exact Or.inr (nearNewYear_of_lt hgt h).symm

namespace Zone

/-- The offset that holds at New Year. -/
def newYearOffset (z : Zone) : ℤ :=
  match z.daylight with
  | none => z.standard
  | some d => if d.start.month < d.stop.month then z.standard else d.offset

/-- The first second that the clock skips, in a year in which daylight saving time ends later. -/
def OpensGap (z : Zone) (localSeconds : ℤ) : Prop :=
  ∃ d ∈ z.daylight, localSeconds = d.start.localTime (yearOfSeconds localSeconds) ∧
    localSeconds < d.stop.localTime (yearOfSeconds localSeconds)

namespace IsRegular
variable {z : Zone} (hz : z.IsRegular)
include hz

theorem offsetAt_mem (u : ℤ) : -86400 < z.offsetAt u ∧ z.offsetAt u < 86400 := by
  have hstandard := hz.standard
  cases hd : z.daylight with
  | none =>
      simp only [offsetAt, hd]
      exact hstandard
  | some d =>
      have hahead := (hz.daylight d hd).ahead
      have hoffset := (hz.daylight d hd).offset
      rcases hz.offsetAt_cases hd u with ⟨hat, -⟩ | ⟨hat, -⟩ <;> omega

theorem offsetOfLocal?_mem {s offset : ℤ} (h : z.offsetOfLocal? s = some offset) :
    -86400 < offset ∧ offset < 86400 := by
  have hstandard := hz.standard
  cases hd : z.daylight with
  | none =>
      simp only [offsetOfLocal?, hd, Option.some.injEq] at h
      omega
  | some d =>
      have hahead := (hz.daylight d hd).ahead
      have hoffset := (hz.daylight d hd).offset
      rcases hz.offsetOfLocal?_cases hd s with ⟨hread, -⟩ | ⟨hread, -⟩ | ⟨hread, -⟩ <;>
        rw [hread] at h <;> simp only [Option.some.injEq, reduceCtorEq] at h <;> omega

theorem offsetAt_of_nearNewYear {u : ℤ} (hu : NearNewYear u) : z.offsetAt u = z.newYearOffset := by
  cases hd : z.daylight with
  | none => simp only [offsetAt, newYearOffset, hd]
  | some d =>
      have hchanges := hz.changes hd (yearOfSeconds u)
      have hcases := hz.offsetAt_cases hd u
      unfold NearNewYear at hu
      simp only [newYearOffset, hd]
      split_ifs <;> omega

theorem offsetOfLocal?_of_nearNewYear {s : ℤ} (hs : NearNewYear s) :
    z.offsetOfLocal? s = some z.newYearOffset := by
  cases hd : z.daylight with
  | none => simp only [offsetOfLocal?, newYearOffset, hd]
  | some d =>
      have hchanges := hz.changes hd (yearOfSeconds s)
      unfold NearNewYear at hs
      simp only [newYearOffset, hd]
      rcases hz.offsetOfLocal?_cases hd s with ⟨hread, h⟩ | ⟨hread, h⟩ | ⟨hread, h⟩ <;>
        rw [hread] <;> split_ifs <;> first | rfl | omega

/-- **A local time is read in the offset that holds at its instant**, but for the second in which a
gap opens. -/
theorem offsetAt_of_offsetOfLocal? {s offset : ℤ} (h : z.offsetOfLocal? s = some offset)
    (hgap : ¬ z.OpensGap s) : z.offsetAt (s - offset) = offset := by
  obtain ⟨hlow, hhigh⟩ := hz.offsetOfLocal?_mem h
  rcases year_eq_or_nearNewYear (s := s) (u := s - offset) (by omega) (by omega) with hyear | hnear
  · cases hd : z.daylight with
    | none =>
        simp only [offsetOfLocal?, offsetAt, hd, Option.some.injEq] at h ⊢
        exact h
    | some d =>
        have hchanges := hz.changes hd (yearOfSeconds s)
        have hcases := hz.offsetAt_cases hd (s - offset)
        have hopens : ¬ (s = d.start.localTime (yearOfSeconds s) ∧
            s < d.stop.localTime (yearOfSeconds s)) := fun hopen => hgap ⟨d, hd, hopen⟩
        rw [← hyear] at hcases
        rcases hz.offsetOfLocal?_cases hd s with ⟨hread, hs⟩ | ⟨hread, hs⟩ | ⟨hread, hs⟩ <;>
          rw [hread] at h <;> simp only [Option.some.injEq, reduceCtorEq] at h <;> omega
  · rw [hz.offsetOfLocal?_of_nearNewYear hnear.1, Option.some.injEq] at h
    rw [hz.offsetAt_of_nearNewYear hnear.2, h]

/-- **A local time is refused only if the clock never shows it.** -/
theorem ne_of_offsetOfLocal?_eq_none {s : ℤ} (h : z.offsetOfLocal? s = none) (u : ℤ) :
    u + z.offsetAt u ≠ s := by
  rintro rfl
  obtain ⟨hlow, hhigh⟩ := hz.offsetAt_mem u
  rcases year_eq_or_nearNewYear (s := u + z.offsetAt u) (u := u) (by omega) (by omega)
    with hyear | hnear
  · cases hd : z.daylight with
    | none => simp [offsetOfLocal?, hd] at h
    | some d =>
        have hchanges := hz.changes hd (yearOfSeconds u)
        have hcases := hz.offsetAt_cases hd u
        have hread := hz.offsetOfLocal?_cases hd (u + z.offsetAt u)
        rw [h, hyear] at hread
        simp only [reduceCtorEq, false_and, false_or, true_and] at hread
        omega
  · rw [hz.offsetOfLocal?_of_nearNewYear hnear.1] at h
    cases h

/-! ### Instants of local times -/

/-- What is read off the clock is what it shows. -/
theorem wallClock_of_instantOfLocal? {s : ℤ} {nanos : ℕ} {t : Instant}
    (h : z.instantOfLocal? s nanos = some t) (hgap : ¬ z.OpensGap s) : z.wallClock t = s := by
  obtain ⟨offset, hoffset, hof⟩ := Option.bind_eq_some_iff.mp h
  obtain ⟨hseconds, -⟩ := Instant.of?_eq_some_iff.mp hof
  rw [wallClock, hseconds, hz.offsetAt_of_offsetOfLocal? hoffset hgap, Int.sub_add_cancel]

/-- What the clock shows at an instant of the calendar can be read off it, also in the hour that it
repeats. -/
theorem exists_instantOfLocal? (u : Instant) {nanos : ℕ} (hnanos : nanos < 2000000000) :
    ∃ t, z.instantOfLocal? (z.wallClock u) nanos = some t := by
  obtain ⟨offset, hoffset⟩ : ∃ offset, z.offsetOfLocal? (z.wallClock u) = some offset := by
    cases hread : z.offsetOfLocal? (z.wallClock u) with
    | none => exact absurd rfl (hz.ne_of_offsetOfLocal?_eq_none hread u.seconds)
    | some offset => exact ⟨offset, rfl⟩
  have hcalendar : Contains (z.wallClock u - offset) := by
    obtain ⟨hlow, hhigh⟩ := hz.offsetOfLocal?_mem hoffset
    obtain ⟨hlow', hhigh'⟩ := hz.offsetAt_mem u.seconds
    have hclock : z.wallClock u = u.seconds + z.offsetAt u.seconds := rfl
    by_cases hsame : offset = z.offsetAt u.seconds
    · rw [hclock, hsame, Int.add_sub_cancel]
      exact u.inCalendar
    -- different offsets are read and hold away from New Year, and so away from the calendar's ends
    · have hyear : yearOfSeconds u.seconds = yearOfSeconds (z.wallClock u - offset) := by
        by_contra hne
        obtain ⟨hu, -⟩ := (year_eq_or_nearNewYear (by omega) (by omega)).resolve_left hne
        have hs : NearNewYear (z.wallClock u) := by
          rcases year_eq_or_nearNewYear (s := z.wallClock u) (u := u.seconds) (by omega) (by omega)
            with heq | hnear
          · rw [← heq] at hne
            exact ((year_eq_or_nearNewYear (by omega) (by omega)).resolve_left hne).1
          · exact hnear.1
        rw [hz.offsetOfLocal?_of_nearNewYear hs, Option.some.injEq] at hoffset
        exact hsame (hoffset ▸ (hz.offsetAt_of_nearNewYear hu).symm)
      rw [Contains, inYears_iff, ← yearOfSeconds, ← hyear]
      exact inYears_iff.mp u.inCalendar
  exact ⟨⟨_, nanos, hcalendar, hnanos⟩, by
    rw [instantOfLocal?, hoffset, Option.bind_some, Instant.of?_eq_some_iff]
    exact ⟨rfl, rfl⟩⟩

/-! ### Where a gap opens -/

section
variable {s : ℤ} {d : Daylight} (hd : z.daylight = some d)
  (hstart : s = d.start.localTime (yearOfSeconds s))
  (hstop : s < d.stop.localTime (yearOfSeconds s))
include hd hstart hstop

theorem yearOfSeconds_of_opensGap {u : ℤ} (h : s ≤ u + 7 * 86400) (h' : u ≤ s + 7 * 86400) :
    yearOfSeconds s = yearOfSeconds u := by
  have hchanges := hz.changes hd (yearOfSeconds s)
  refine (year_eq_or_nearNewYear h h').resolve_right fun hnear => ?_
  have hs := hnear.1
  unfold NearNewYear at hs
  omega

/-- The second in which a gap opens is read in standard time, but the clock shows the end of the gap
then. -/
theorem offsets_of_opensGap :
    z.offsetOfLocal? s = some z.standard ∧ z.offsetAt (s - z.standard) = d.offset := by
  have hchanges := hz.changes hd (yearOfSeconds s)
  have hyear := hz.yearOfSeconds_of_opensGap hd hstart hstop (u := s - z.standard) (by omega)
    (by omega)
  constructor
  · rcases hz.offsetOfLocal?_cases hd s with ⟨hread, -⟩ | ⟨-, h⟩ | ⟨-, h⟩
    · exact hread
    · omega
    · omega
  · have hcases := hz.offsetAt_cases hd (s - z.standard)
    rw [← hyear] at hcases
    rcases hcases with ⟨-, h⟩ | ⟨hat, -⟩
    · omega
    · exact hat

/-- **The second in which a gap opens is read, though the clock never shows it**, as the instant at
which the clock shows the end of the gap. -/
theorem exists_instantOfLocal?_of_opensGap
    (hyears : firstYear ≤ yearOfSeconds s ∧ yearOfSeconds s ≤ lastYear) {nanos : ℕ}
    (hnanos : nanos < 2000000000) :
    (∀ u : Instant, z.wallClock u ≠ s) ∧ ∃ t, z.instantOfLocal? s nanos = some t ∧
      z.wallClock t = s + (d.offset - z.standard) := by
  have hchanges := hz.changes hd (yearOfSeconds s)
  obtain ⟨hread, hat⟩ := hz.offsets_of_opensGap hd hstart hstop
  have hcalendar : Contains (s - z.standard) := by
    rw [hz.yearOfSeconds_of_opensGap hd hstart hstop (u := s - z.standard) (by omega) (by omega)]
      at hyears
    exact inYears_iff.mpr hyears
  refine ⟨fun u hu => ?_, ⟨s - z.standard, nanos, hcalendar, hnanos⟩, ?_, ?_⟩
  · obtain ⟨hlow, hhigh⟩ := hz.offsetAt_mem u.seconds
    have hclock : u.seconds + z.offsetAt u.seconds = s := hu
    have hcases := hz.offsetAt_cases hd u.seconds
    rw [← hz.yearOfSeconds_of_opensGap hd hstart hstop (u := u.seconds) (by omega) (by omega)]
      at hcases
    omega
  · rw [instantOfLocal?, hread, Option.bind_some, Instant.of?_eq_some_iff]
    exact ⟨rfl, rfl⟩
  · show s - z.standard + z.offsetAt (s - z.standard) = _
    rw [hat]
    omega

end

end IsRegular

/-! ### Rules -/

/-- The rules that clocks are set to: zones without daylight saving time, and one with it on either
side of the equator. -/
def rules : List String :=
  ["UTC0", "EST5EDT,M3.2.0,M11.1.0", "<+0530>-5:30", "NZST-12NZDT,M9.5.0,M4.1.0/3", "<-0330>3:30"]

theorem map_ofPosix?_rules : rules.map ofPosix? =
    [some ⟨0, none⟩, some ⟨-18000, some ⟨-14400, ⟨3, 2, 0, 7200⟩, ⟨11, 1, 0, 7200⟩⟩⟩,
      some ⟨19800, none⟩, some ⟨43200, some ⟨46800, ⟨9, 5, 0, 7200⟩, ⟨4, 1, 0, 10800⟩⟩⟩,
      some ⟨-12600, none⟩] := by
  decide +kernel

theorem isRegular_of_none {standard : ℤ} (h : -86400 < standard ∧ standard < 86400) :
    IsRegular ⟨standard, none⟩ := ⟨h, nofun⟩

theorem isRegular_of_some {standard : ℤ} {d : Daylight} (h : -86400 < standard ∧ standard < 86400)
    (hd : d.IsRegular standard) : IsRegular ⟨standard, some d⟩ :=
  ⟨h, fun _ hsome => Option.some.inj hsome ▸ hd⟩

theorem isRegular_of_mem_rules {rule : String} (hrule : rule ∈ rules) :
    ∃ z, ofPosix? rule = some z ∧ z.IsRegular := by
  have hmem : ofPosix? rule ∈ rules.map ofPosix? := List.mem_map_of_mem hrule
  rw [map_ofPosix?_rules] at hmem
  simp only [List.mem_cons, List.not_mem_nil, or_false] at hmem
  rcases hmem with h | h | h | h | h
  · exact ⟨_, h, isRegular_of_none (by decide)⟩
  · refine ⟨_, h, isRegular_of_some (by decide) ⟨?_, ?_, by decide, by decide, by decide⟩⟩ <;>
      constructor <;> decide
  · exact ⟨_, h, isRegular_of_none (by decide)⟩
  · refine ⟨_, h, isRegular_of_some (by decide) ⟨?_, ?_, by decide, by decide, by decide⟩⟩ <;>
      constructor <;> decide
  · exact ⟨_, h, isRegular_of_none (by decide)⟩

end Zone

end RouteTraffic.Calendar
