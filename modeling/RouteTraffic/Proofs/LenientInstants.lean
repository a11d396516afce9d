import RouteTraffic.Proofs.InstantText

/-! # Instants and the lenient form

The lenient form reads the text of every instant of the calendar back as a clock shows it, in years
of any length and sign and in leap seconds too (`parseLenient?_toText`).  The number of digits of a
field decides how far it is read (`numberUpTo?_paddedDigits`), and only a year may have more than
four of them (`year?_yearText`). -/

namespace RouteTraffic.Instant

open Text Calendar

/-! ### Fields -/

theorem head?_cons_isDigit {c : Char} (h : isDigit c = false) (rest : List Char) :
    ∀ d ∈ (c :: rest).head?, isDigit d = false := by
  simp [h]

theorem trimStart_paddedDigits (w n : ℕ) (rest : List Char) :
    trimStart (paddedDigits w n ++ rest) = paddedDigits w n ++ rest := by
  obtain ⟨c, cs, hcs⟩ := List.exists_cons_of_ne_nil (paddedDigits_ne_nil w n)
  have hc : isDigit c = true := isDigit_of_mem_paddedDigits (hcs ▸ List.mem_cons_self)
  rw [hcs, List.cons_append]
  exact trimStart_cons (isBlank_of_isDigit hc) _

section
variable {n : ℕ} {rest : List Char} (hrest : ∀ c ∈ rest.head?, isDigit c = false)
include hrest

theorem numberUpTo?_paddedDigits {w : ℕ} (hw : 0 < w) (h : n < 10 ^ w) :
    numberUpTo? w (paddedDigits w n ++ rest) = some (n, rest) := by
  have htake := takeWhile_isDigit_append
    (fun c => isDigit_of_mem_paddedDigits (w := w) (n := n)) hrest
  have hlength := length_paddedDigits hw h
  have hfull : (paddedDigits w n).take w = paddedDigits w n :=
    List.take_of_length_le (Nat.le_of_eq hlength)
  simp only [numberUpTo?, trimStart_paddedDigits, htake, hfull, paddedDigits_ne_nil, if_false,
    ofDigits_paddedDigits, List.drop_left]

theorem signed?_paddedDigits :
    year?.signed? (paddedDigits 4 n ++ rest) = some (n, rest) := by
  have htake := takeWhile_isDigit_append
    (fun c => isDigit_of_mem_paddedDigits (w := 4) (n := n)) hrest
  simp only [year?.signed?, htake, paddedDigits_ne_nil, if_false, ofDigits_paddedDigits,
    List.drop_left]

theorem year?_yearText (y : ℤ) : year? (yearText y ++ rest) = some (y, rest) := by
  unfold yearText
  split_ifs with hfour hnegative
  · -- four digits, of which the first is no sign
    have hread : numberUpTo? 4 (paddedDigits 4 y.natAbs ++ rest) = some (y.natAbs, rest) :=
      numberUpTo?_paddedDigits hrest (by decide) (by omega)
    have hfirst : ∀ c cs, isDigit c = false → paddedDigits 4 y.natAbs ++ rest ≠ c :: cs := by
      intro c cs hc h
      obtain ⟨d, ds, hds⟩ := List.exists_cons_of_ne_nil (paddedDigits_ne_nil 4 y.natAbs)
      rw [hds, List.cons_append] at h
      have hd : isDigit d = true := isDigit_of_mem_paddedDigits (hds ▸ List.mem_cons_self)
      simp [(List.cons.inj h).1, hc] at hd
    simp only [year?, trimStart_paddedDigits]
    split
    · exact absurd ‹_› (hfirst _ _ rfl)
    · exact absurd ‹_› (hfirst _ _ rfl)
    · simp [hread, Int.natAbs_of_nonneg hfour.1]
  · have hy : -(y.natAbs : ℤ) = y := by omega
    have htrim := trimStart_cons (c := '-') rfl (paddedDigits 4 y.natAbs ++ rest)
    simp only [year?, List.cons_append, htrim, signed?_paddedDigits hrest, Option.map_some, hy]
  · have hy : (y.natAbs : ℤ) = y := by omega
    have htrim := trimStart_cons (c := '+') rfl (paddedDigits 4 y.natAbs ++ rest)
    simp only [year?, List.cons_append, htrim, signed?_paddedDigits hrest, Option.map_some, hy]

theorem date?_dateText (gap : List Char → List Char) (hgap : ∀ cs, gap ('-' :: cs) = '-' :: cs)
    {date : Date} (hmonth : date.month < 100) (hday : date.day < 100) :
    date? gap (dateText date ++ rest) = some (date, rest) := by
  have hdash := fun cs => head?_cons_isDigit (c := '-') rfl cs
  have hread := numberUpTo?_paddedDigits hrest (w := 2) (by decide) hday
  simp only [date?, dateText, List.append_assoc, List.cons_append, year?_yearText (hdash _), hgap,
    numberUpTo?_paddedDigits (hdash _) (w := 2) (by decide) hmonth, hread, char?, if_true,
    Option.bind_eq_bind, Option.bind_some]
  rfl

end

theorem head?_fractionText (n : ℕ) :
    ∀ c ∈ (fractionText n ++ ['Z']).head?, isDigit c = false := by
  unfold fractionText
  split_ifs <;> simp [show isDigit '.' = false from rfl, show isDigit 'Z' = false from rfl]

theorem fraction?_fractionText {n : ℕ} (h : n < 1000000000) :
    fraction? (fractionText n ++ ['Z']) = some (n, ['Z']) := by
  simp [fraction?, optionalFraction_fractionText h [], Except.toOption]

/-! ### The calendar -/

theorem inCalendar_ofDayNumber (t : Instant) :
    (Date.ofDayNumber (t.seconds / 86400)).inCalendar = true := by
  have hyear : (Date.ofDayNumber (t.seconds / 86400)).year = yearOfDay (t.seconds / 86400) := rfl
  simp only [Date.inCalendar, hyear, Bool.and_eq_true, decide_eq_true_eq]
  exact inYears_iff.mp t.inCalendar

/-! ### Instants -/

theorem parseLenient?_fields {date : Date} {h m s n : ℕ} (hcalendar : date.inCalendar = true)
    (hmonth : date.month < 100) (hday : date.day < 100) (hh : h < 100) (hm : m < 100)
    (hs : s < 100) (hn : n < 1000000000) :
    parseLenient? (String.ofList (dateText date ++ 'T' :: (paddedDigits 2 h ++
        ':' :: paddedDigits 2 m ++ ':' :: paddedDigits 2 s) ++ fractionText n ++ ['Z'])) =
      (LocalTime.of? date h m s n).bind fun t => (withOffset t 0).toOption := by
  have hcolon := fun cs => head?_cons_isDigit (c := ':') rfl cs
  have htail := head?_fractionText n
  have hfraction := fraction?_fractionText hn
  have hoffset : lenientOffset? (trimStart ['Z']) = some (0, []) := rfl
  have hdate := date?_dateText (head?_cons_isDigit (c := 'T') rfl
    (paddedDigits 2 h ++ ':' :: (paddedDigits 2 m ++ ':' :: (paddedDigits 2 s ++
      (fractionText n ++ ['Z']))))) trimStart (trimStart_cons rfl) hmonth hday
  simp only [parseLenient?, String.toList_ofList, List.append_assoc, List.cons_append, hdate,
    numberUpTo?_paddedDigits (hcolon _) (w := 2) (n := h) (by decide) hh,
    numberUpTo?_paddedDigits (hcolon _) (w := 2) (n := m) (by decide) hm,
    numberUpTo?_paddedDigits htail (w := 2) (n := s) (by decide) hs, trimStart_cons (c := ':') rfl,
    oneOf, char?, beq_self_eq_true, Bool.true_or, if_true, Except.toOption, hfraction, hoffset,
    hcalendar, Option.bind_eq_bind, Option.bind_some]
  rfl

theorem parseLenient?_toText_of_isOnClock {t : Instant} (h : t.IsOnClock) :
    parseLenient? t.toText = some t := by
  have hvalid := Date.isValid_ofDayNumber (t.seconds / 86400)
  obtain ⟨hmonth, hday⟩ := Date.ofDayNumber_lt (t.seconds / 86400)
  have hsecond : t.secondOfDay = t.seconds % 86400 := rfl
  have hleap := t.leapSecond_le
  rw [toText, render, clockText, parseLenient?_fields t.inCalendar_ofDayNumber hmonth hday
    (by omega) (by omega) (by omega) (Nat.mod_lt _ (by decide)), localTime_of_clock h hvalid]
  simp [withOffset_clock, Except.toOption]

/-- **Instants are read back at full precision.**  In the lenient form the text of an instant stands
for what a clock shows of it, wherever in the calendar it lies. -/
theorem parseLenient?_toText (t : Instant) : parseLenient? t.toText = some t.onClock := by
  rw [← t.toText_onClock]
  exact parseLenient?_toText_of_isOnClock t.onClock_isOnClock

end RouteTraffic.Instant
