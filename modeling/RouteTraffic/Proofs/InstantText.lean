import RouteTraffic.Instant.Parser
import RouteTraffic.Proofs.CivilDates
import RouteTraffic.Proofs.DecimalDigits
import RouteTraffic.Proofs.Timeline

/-! # Instants and their text

The text of an instant in a year of four digits is read back at its full precision
(`parseStrict_render`); cut to the millisecond it is what a timestamp is read as in every zone
(`parse_toText`).

Only a leap second that ends a minute of UTC has a text of its own, with the sixtieth second.  One
inside a minute has the text of the second after it (`render_onClock`), and that is what is read. -/

namespace RouteTraffic.Instant

open Text Calendar

/-- The year in UTC. -/
def year (t : Instant) : ℤ := (Date.ofDayNumber (t.seconds / 86400)).year

/-- Leap seconds come at the end of a minute, where the clock shows them as its sixtieth second. -/
def IsOnClock (t : Instant) : Prop := t.isOrdinary = true ∨ t.seconds % 60 = 59

/-- The year has four digits at most and no sign. -/
def HasPlainYear (t : Instant) : Prop := 0 ≤ t.year ∧ t.year ≤ 9999

/-- The text has a year of four digits and a clock time that is no other instant's. -/
structure IsPrintable (t : Instant) : Prop where
  year_nonneg : 0 ≤ t.year
  year_le : t.year ≤ 9999
  onClock : t.IsOnClock

theorem IsPrintable.hasPlainYear {t : Instant} (h : t.IsPrintable) : t.HasPlainYear :=
  ⟨h.year_nonneg, h.year_le⟩

/-! ### Leap seconds inside a minute -/

instance (t : Instant) : Decidable t.IsOnClock := inferInstanceAs (Decidable (_ ∨ _))

/-- The calendar ends with a minute. -/
theorem contains_next {t : Instant} (h : ¬ t.IsOnClock) : Calendar.Contains (t.seconds + 1) := by
  have hcalendar := t.inCalendar
  have hlast : t.seconds ≠ lastSecond := fun hlast => h (Or.inr (by rw [hlast]; decide))
  omega

/-- The instant that a clock shows.  A leap second inside a minute is shown as the next second. -/
def onClock (t : Instant) : Instant :=
  if h : t.IsOnClock then t
  else ⟨t.seconds + 1, t.nanos - 1000000000, contains_next h, by have := t.nanos_lt; omega⟩

section
variable {t : Instant}

theorem onClock_of_isOnClock (h : t.IsOnClock) : t.onClock = t := dif_pos h

theorem onClock_of_not (h : ¬ t.IsOnClock) :
    t.onClock.seconds = t.seconds + 1 ∧ t.nanos = t.onClock.nanos + 1000000000 := by
  have hleap : ¬ t.nanos < 1000000000 := fun hlt => h (Or.inl (decide_eq_true hlt))
  rw [onClock, dif_neg h]
  exact ⟨rfl, by dsimp only; omega⟩

theorem onClock_eq_self_iff : t.onClock = t ↔ t.IsOnClock := by
  refine ⟨fun h => ?_, onClock_of_isOnClock⟩
  by_contra hclock
  have hseconds := (onClock_of_not hclock).1
  rw [h] at hseconds
  omega

theorem onClock_isOnClock (t : Instant) : t.onClock.IsOnClock := by
  by_cases h : t.IsOnClock
  · rwa [onClock_of_isOnClock h]
  · have hnanos := (onClock_of_not h).2
    have := t.nanos_lt
    left
    rw [isOrdinary, decide_eq_true_eq]
    omega

theorem onClock_day (t : Instant) : t.onClock.seconds / 86400 = t.seconds / 86400 := by
  by_cases h : t.IsOnClock
  · rw [onClock_of_isOnClock h]
  · have hsecond : t.seconds % 60 ≠ 59 := fun hsecond => h (Or.inr hsecond)
    rw [(onClock_of_not h).1]
    omega

theorem onClock_hasPlainYear (h : t.HasPlainYear) : t.onClock.HasPlainYear := by
  rw [HasPlainYear, year, onClock_day]
  exact h

theorem onClock_wholeMillis (h : t.IsWholeMillis) : t.onClock.IsWholeMillis := by
  by_cases hclock : t.IsOnClock
  · rwa [onClock_of_isOnClock hclock]
  · have hnanos := (onClock_of_not hclock).2
    rw [IsWholeMillis] at h ⊢
    omega

end

theorem render_onClock (t : Instant) : t.onClock.render = t.render := by
  by_cases h : t.IsOnClock
  · rw [onClock_of_isOnClock h]
  · obtain ⟨hseconds, hnanos⟩ := onClock_of_not h
    have hsecond : t.seconds % 60 ≠ 59 := fun hsecond => h (Or.inr hsecond)
    have hday : t.secondOfDay = t.seconds % 86400 := rfl
    have hlt := t.nanos_lt
    have hleap : t.leapSecond = 1 ∧ t.onClock.leapSecond = 0 := by
      simp only [leapSecond]
      omega
    have hnext : t.onClock.secondOfDay.toNat = t.secondOfDay.toNat + 1 := by
      rw [secondOfDay, hseconds]
      omega
    have hfraction : t.onClock.nanos % 1000000000 = t.nanos % 1000000000 := by omega
    have hclock : clockText (t.secondOfDay.toNat + 1) 0 = clockText t.secondOfDay.toNat 1 := by
      have hhour : (t.secondOfDay.toNat + 1) / 3600 = t.secondOfDay.toNat / 3600 := by omega
      have hminute : (t.secondOfDay.toNat + 1) / 60 % 60 = t.secondOfDay.toNat / 60 % 60 := by omega
      have hshown : (t.secondOfDay.toNat + 1) % 60 + 0 = t.secondOfDay.toNat % 60 + 1 := by omega
      rw [clockText, clockText, hhour, hminute, hshown]
    rw [render, render, onClock_day, hfraction, hleap.1, hleap.2, hnext, hclock]

theorem toText_onClock (t : Instant) : t.onClock.toText = t.toText :=
  congrArg String.ofList t.render_onClock

/-! ### Digits and characters -/

theorem exactDigits_append {ds : List Char} (hds : ∀ c ∈ ds, isDigit c = true)
    (rest : List Char) (v : ℕ) :
    exactDigits ds.length (ds ++ rest) v = .ok (Nat.ofDigitChars 10 ds v, rest) := by
  induction ds generalizing v with
  | nil => rfl
  | cons d ds ih =>
      rw [List.length_cons, List.cons_append, exactDigits, if_pos (hds d List.mem_cons_self),
        ih (fun c hc => hds c (List.mem_cons_of_mem d hc))]
      rfl

theorem exactDigits_paddedDigits {w n : ℕ} (hw : 0 < w) (h : n < 10 ^ w) (rest : List Char) :
    exactDigits w (paddedDigits w n ++ rest) 0 = .ok (n, rest) := by
  have hread := exactDigits_append (fun c => isDigit_of_mem_paddedDigits (w := w) (n := n)) rest 0
  rwa [length_paddedDigits hw h, ← ofDigits_eq_ofDigitChars, ofDigits_paddedDigits] at hread

theorem fraction_paddedDigits {w n : ℕ} (hw : 0 < w) (hw' : w ≤ 9) (h : n < 10 ^ w)
    (rest : List Char) :
    fraction (paddedDigits w n ++ 'Z' :: rest) = .ok (n * Decimal.tenPow (9 - w), 'Z' :: rest) := by
  have hdigit := fun c => isDigit_of_mem_paddedDigits (w := w) (n := n) (c := c)
  have hlength := length_paddedDigits hw h
  have hz : ∀ c ∈ ('Z' :: rest).head?, isDigit c = false := by
    intro c hc
    obtain rfl : 'Z' = c := Option.some.inj hc
    rfl
  obtain ⟨c, ds, hds⟩ := List.exists_cons_of_ne_nil (paddedDigits_ne_nil w n)
  have hcons : paddedDigits w n ++ 'Z' :: rest = c :: (ds ++ 'Z' :: rest) := by
    rw [hds, List.cons_append]
  rw [hcons, fraction, if_pos (hdigit c (hds ▸ List.mem_cons_self)), ← hcons]
  dsimp only
  rw [takeWhile_isDigit_append hdigit hz, dropWhile_isDigit_append hdigit hz,
    List.take_of_length_le (by omega), hlength, ofDigits_paddedDigits]

/-- Nanoseconds have nine decimals, and those left out are zeros. -/
theorem optionalFraction_fractionText {n : ℕ} (h : n < 1000000000) (rest : List Char) :
    optionalFraction (fractionText n ++ 'Z' :: rest) = .ok (n, 'Z' :: rest) := by
  unfold fractionText
  split_ifs with hzero hmilli hmicro
  · rw [hzero]
    rfl
  · refine (fraction_paddedDigits (by decide) (by decide) (by omega) rest).trans ?_
    rw [show Decimal.tenPow (9 - 3) = 1000000 from rfl,
      Nat.div_mul_cancel (Nat.dvd_of_mod_eq_zero hmilli)]
  · refine (fraction_paddedDigits (by decide) (by decide) (by omega) rest).trans ?_
    rw [show Decimal.tenPow (9 - 6) = 1000 from rfl,
      Nat.div_mul_cancel (Nat.dvd_of_mod_eq_zero hmicro)]
  · refine (fraction_paddedDigits (by decide) (by decide) (by omega) rest).trans ?_
    rw [show Decimal.tenPow (9 - 9) = 1 from rfl, Nat.mul_one]

theorem length_le_utf8Length (cs : List Char) : cs.length ≤ utf8Length cs := by
  suffices ∀ n, n + cs.length ≤ cs.foldl (fun n c => n + c.utf8Size) n from
    Nat.le_trans (Nat.le_add_left _ _) (this 0)
  induction cs with
  | nil => exact fun n => Nat.le_refl n
  | cons c cs ih =>
      intro n
      have := c.utf8Size_pos
      have := ih (n + c.utf8Size)
      rw [List.length_cons, List.foldl_cons]
      omega

/-! ### Dates and clock times -/

theorem yearText_of_fourDigits {y : ℤ} (h0 : 0 ≤ y) (h : y ≤ 9999) :
    yearText y = paddedDigits 4 y.natAbs := by
  rw [yearText, if_pos ⟨h0, h⟩]

theorem parseStrict_fields {date : Date} {h m s n : ℕ} (hy0 : 0 ≤ date.year)
    (hy : date.year ≤ 9999) (hdate : date.isValid = true) (hmonth : date.month < 100)
    (hday : date.day < 100) (hh : h < 100) (hm : m < 100) (hs : s < 100) (hn : n < 1000000000) :
    parseStrict (dateText date ++ 'T' :: (paddedDigits 2 h ++ ':' :: paddedDigits 2 m ++
        ':' :: paddedDigits 2 s) ++ fractionText n ++ ['Z']) =
      (inRange (LocalTime.of? date h m s n)).bind fun t => withOffset t 0 := by
  have hlength : ¬ utf8Length (dateText date ++ 'T' :: (paddedDigits 2 h ++
      ':' :: paddedDigits 2 m ++ ':' :: paddedDigits 2 s) ++ fractionText n ++ ['Z']) < 19 := by
    refine Nat.not_lt.mpr (Nat.le_trans ?_ (length_le_utf8Length _))
    simp only [dateText, yearText_of_fourDigits hy0 hy, List.length_append, List.length_cons,
      length_paddedDigits (w := 4) (n := date.year.natAbs) (by decide) (by omega),
      length_paddedDigits (w := 2) (n := date.month) (by decide) hmonth,
      length_paddedDigits (w := 2) (n := date.day) (by decide) hday,
      length_paddedDigits (w := 2) (n := h) (by decide) hh,
      length_paddedDigits (w := 2) (n := m) (by decide) hm,
      length_paddedDigits (w := 2) (n := s) (by decide) hs]
    omega
  have hyear : ((date.year.natAbs : ℕ) : ℤ) = date.year := Int.natAbs_of_nonneg hy0
  unfold parseStrict
  rw [if_neg hlength]
  simp only [dateText, yearText_of_fourDigits hy0 hy, List.append_assoc, List.cons_append,
    exactDigits_paddedDigits (w := 4) (n := date.year.natAbs) (by decide) (by omega),
    exactDigits_paddedDigits (w := 2) (n := date.month) (by decide) hmonth,
    exactDigits_paddedDigits (w := 2) (n := date.day) (by decide) hday,
    exactDigits_paddedDigits (w := 2) (n := h) (by decide) hh,
    exactDigits_paddedDigits (w := 2) (n := m) (by decide) hm,
    exactDigits_paddedDigits (w := 2) (n := s) (by decide) hs, colon, oneOf, bind, Except.bind,
    beq_self_eq_true, Bool.true_or, if_true, hyear, hdate, Bool.not_true, Bool.false_eq_true,
    if_false, optionalFraction_fractionText hn []]
  cases inRange (LocalTime.of? date h m s n) with
  | error f => rfl
  | ok t => rfl

theorem leapSecond_le (t : Instant) : t.leapSecond ≤ 1 := by
  have := t.nanos_lt
  rw [leapSecond]
  omega

theorem localTime_of_clock {t : Instant} (h : t.IsOnClock) {date : Date}
    (hdate : date.isValid = true) :
    LocalTime.of? date (t.secondOfDay.toNat / 3600) (t.secondOfDay.toNat / 60 % 60)
        (t.secondOfDay.toNat % 60 + t.leapSecond) (t.nanos % 1000000000) =
      some ⟨date, t.secondOfDay.toNat, t.nanos⟩ := by
  have hnanos := t.nanos_lt
  have hday : t.secondOfDay = t.seconds % 86400 := rfl
  have hleap : t.leapSecond = 1 → t.secondOfDay.toNat % 60 = 59 := by
    intro hleap
    rcases h with hordinary | hend
    · rw [isOrdinary, decide_eq_true_eq] at hordinary
      rw [leapSecond] at hleap
      omega
    · omega
  have hle := t.leapSecond_le
  have hfields : (date.isValid && decide (t.secondOfDay.toNat / 3600 < 24) &&
      decide (t.secondOfDay.toNat / 60 % 60 < 60) &&
      decide (t.secondOfDay.toNat % 60 + t.leapSecond ≤ 60)) = true := by
    simp only [hdate, Bool.true_and, Bool.and_eq_true, decide_eq_true_eq]
    omega
  have hsixty : (if t.secondOfDay.toNat % 60 + t.leapSecond = 60 then 1 else 0) = t.leapSecond := by
    split_ifs <;> omega
  rw [LocalTime.of?, if_pos hfields]
  simp only [hsixty, Option.some.injEq, LocalTime.mk.injEq, true_and]
  rw [leapSecond]
  omega

/-! ### Instants -/

theorem of?_parts (t : Instant) : of? t.seconds t.nanos = some t :=
  of?_eq_some_iff.mpr ⟨rfl, rfl⟩

theorem withOffset_clock (t : Instant) :
    withOffset ⟨Date.ofDayNumber (t.seconds / 86400), t.secondOfDay.toNat, t.nanos⟩ 0 = .ok t := by
  have hsecond : t.secondOfDay = t.seconds % 86400 := rfl
  have hseconds : t.seconds / 86400 * 86400 + (t.secondOfDay.toNat : ℤ) - 0 = t.seconds := by omega
  rw [withOffset, if_pos (by decide), LocalTime.atOffset?, LocalTime.seconds,
    Date.toDayNumber_ofDayNumber, hseconds, of?_parts, inRange]

/-- In a year of four digits the text of an instant is read as its date and its clock time. -/
theorem parseStrict_clock {t : Instant} (h0 : 0 ≤ t.year) (h : t.year ≤ 9999) :
    parseStrict t.render =
      (inRange (LocalTime.of? (Date.ofDayNumber (t.seconds / 86400)) (t.secondOfDay.toNat / 3600)
        (t.secondOfDay.toNat / 60 % 60) (t.secondOfDay.toNat % 60 + t.leapSecond)
        (t.nanos % 1000000000))).bind fun time => withOffset time 0 := by
  have hvalid := Date.isValid_ofDayNumber (t.seconds / 86400)
  obtain ⟨hmonth, hday⟩ := Date.ofDayNumber_lt (t.seconds / 86400)
  have hsecond : t.secondOfDay = t.seconds % 86400 := rfl
  have hleap := t.leapSecond_le
  exact parseStrict_fields h0 h hvalid hmonth hday (by omega) (by omega) (by omega)
    (Nat.mod_lt _ (by decide))

/-- The text of an instant is read back as a clock shows it. -/
theorem parseStrict_render {t : Instant} (h : t.HasPlainYear) :
    parseStrict t.render = .ok t.onClock := by
  obtain ⟨h0, hle⟩ := onClock_hasPlainYear h
  rw [← render_onClock, parseStrict_clock h0 hle,
    localTime_of_clock t.onClock_isOnClock (Date.isValid_ofDayNumber _)]
  exact withOffset_clock t.onClock

/-! ### Timestamps -/

theorem trim_render (t : Instant) : trim t.render = t.render := by
  obtain ⟨c, cs, hcs, hc⟩ :
      ∃ c cs, yearText (Date.ofDayNumber (t.seconds / 86400)).year = c :: cs ∧ isBlank c = false := by
    unfold yearText
    split_ifs
    · obtain ⟨c, cs, hcs⟩ := List.exists_cons_of_ne_nil (paddedDigits_ne_nil 4
        (Date.ofDayNumber (t.seconds / 86400)).year.natAbs)
      exact ⟨c, cs, hcs, isBlank_of_isDigit
        (isDigit_of_mem_paddedDigits (hcs ▸ List.mem_cons_self))⟩
    · exact ⟨_, _, rfl, rfl⟩
    · exact ⟨_, _, rfl, rfl⟩
  obtain ⟨init, hinit⟩ : ∃ init, t.render = init ++ ['Z'] := ⟨_, rfl⟩
  obtain ⟨tail, htail⟩ : ∃ tail, t.render = c :: tail := by
    simp only [render, dateText, hcs, List.cons_append]
    exact ⟨_, rfl⟩
  refine trim_of_ends (fun d hd => ?_) fun d hd => ?_
  · rw [htail] at hd
    obtain rfl := Option.some.inj hd
    exact hc
  · rw [hinit, List.getLast?_concat] at hd
    obtain rfl := Option.some.inj hd
    rfl

/-- The text of an instant is read back, to the millisecond, in every zone. -/
theorem parse_toText (z : Zone) {t : Instant} (h : t.HasPlainYear) :
    parse z t.toText = .ok t.onClock.truncateToMillis := by
  simp only [parse, toText, String.toList_ofList, trim_render, parseStrict_render h]

end RouteTraffic.Instant
