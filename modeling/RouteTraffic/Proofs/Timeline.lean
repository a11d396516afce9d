import RouteTraffic.Instant
import Mathlib.Order.Defs.LinearOrder
import Mathlib.Tactic.NormNum

/-! # The line of ordinary instants

An ordinary instant, one in no leap second, is a point on a line of nanoseconds.  On this line
the order of instants is the order of numbers, the span from one instant to another is their
difference (`since_nanos`), and the instant after a span is the one that many nanoseconds
further on, if the calendar reaches that far (`add?_eq_some_iff`, `exists_ordinary`).

Cut to the millisecond, an instant has no digits below it (`truncateToMillis_wholeMillis`), but for
the leap second at the end of the calendar, which stays as it is.

Instants in leap seconds are off the line.  A clock that stands still in leap seconds shows them
in the order of time (`clockReading_mono`), and shows the length of a span that is added, up to the
leap second that it starts in (`clockReading_add_lt`). -/

namespace RouteTraffic

namespace Span

theorem seconds_add_nanos (d : Span) :
    d.wholeSeconds * 1000000000 + d.nanosBeyondSeconds = d.nanos := by
  unfold wholeSeconds nanosBeyondSeconds
  exact Int.tdiv_mul_add_tmod d.nanos 1000000000

theorem neg_nanos (d : Span) : (-d).nanos = -d.nanos := rfl

theorem ofMillis_nanos (ms : ℤ) : (ofMillis ms).nanos = ms * 1000000 := rfl

theorem wholeMillis_of_nonneg {d : Span} (h : 0 ≤ d.nanos) : d.wholeMillis = d.nanos / 1000000 :=
  Int.tdiv_eq_ediv_of_nonneg h

theorem wholeMillis_le_iff {d : Span} {n : ℤ} (hn : 0 ≤ n) :
    d.wholeMillis ≤ n ↔ d.nanos < (n + 1) * 1000000 := by
  unfold wholeMillis
  rcases Int.le_total 0 d.nanos with h | h
  · rw [Int.tdiv_eq_ediv_of_nonneg h]
    omega
  · have : d.nanos.tdiv 1000000 ≤ 0 := by
      have := Int.tdiv_nonneg (Int.neg_nonneg.mpr h) (by norm_num : (0 : ℤ) ≤ 1000000)
      rw [Int.neg_tdiv] at this
      omega
    constructor <;> intro _ <;> omega

theorem parts_of_nonneg {d : Span} (h : 0 ≤ d.nanos) :
    0 ≤ d.wholeSeconds ∧ 0 ≤ d.nanosBeyondSeconds ∧ d.nanosBeyondSeconds < 1000000000 :=
  ⟨Int.tdiv_nonneg h (by norm_num), Int.tmod_nonneg _ h, Int.tmod_lt_of_pos _ (by norm_num)⟩

theorem neg_wholeSeconds (d : Span) : (-d).wholeSeconds = -d.wholeSeconds := Int.neg_tdiv ..

theorem neg_nanosBeyondSeconds (d : Span) : (-d).nanosBeyondSeconds = -d.nanosBeyondSeconds :=
  Int.neg_tmod ..

end Span

namespace Instant

instance : LinearOrder Instant where
  le_refl := le_refl
  le_trans _ _ _ := le_trans
  le_antisymm _ _ := le_antisymm
  le_total := le_total
  lt_iff_le_not_ge a b := by
    rw [← not_le]
    exact ⟨fun h => ⟨(le_total a b).resolve_right h, h⟩, fun h => h.2⟩
  toDecidableLE := inferInstance
  toDecidableLT := inferInstance

/-- Nanoseconds since the epoch. -/
def position (t : Instant) : ℤ := t.seconds * 1000000000 + t.nanos

variable {a b t u : Instant} {d : Span}

theorem nanos_of_ordinary (h : t.isOrdinary) : t.nanos < 1000000000 := by
  simpa [isOrdinary] using h

theorem ordinary_of_nanos (h : t.nanos < 1000000000) : t.isOrdinary := by
  simpa [isOrdinary] using h

theorem le_iff_position (ha : a.isOrdinary) (hb : b.isOrdinary) :
    a ≤ b ↔ a.position ≤ b.position := by
  have := nanos_of_ordinary ha
  have := nanos_of_ordinary hb
  rw [le_iff, position, position]
  omega

theorem lt_iff_position (ha : a.isOrdinary) (hb : b.isOrdinary) :
    a < b ↔ a.position < b.position := by
  rw [← not_le, le_iff_position hb ha]
  omega

theorem position_mem_calendar (h : t.isOrdinary) :
    first.position ≤ t.position ∧ t.position ≤ last.position := by
  have := nanos_of_ordinary h
  obtain ⟨h1, h2⟩ := t.inCalendar
  simp only [position, first, last]
  omega

theorem first_isOrdinary : first.isOrdinary := by decide

/-! ### Spans between instants -/

theorem since_nanos (ha : a.isOrdinary) (hb : b.isOrdinary) :
    (a.since b).nanos = a.position - b.position := by
  simp only [since, ha, hb, position, Bool.not_true, Bool.false_eq_true, and_false, if_false]
  omega

/-! ### Instants after spans -/

theorem of?_eq_some_iff {s : ℤ} {n : ℕ} : of? s n = some u ↔ u.seconds = s ∧ u.nanos = n := by
  unfold of?
  split
  case isTrue h =>
    rw [Option.some.injEq, Instant.ext_iff]
    exact ⟨fun ⟨h1, h2⟩ => ⟨h1.symm, h2.symm⟩, fun ⟨h1, h2⟩ => ⟨h1.symm, h2.symm⟩⟩
  case isFalse h =>
    refine ⟨fun h' => by simp at h', fun ⟨h1, h2⟩ => absurd ?_ h⟩
    exact h1 ▸ h2 ▸ ⟨u.inCalendar, u.nanos_lt⟩

theorem of?_eq_none_iff {s : ℤ} {n : ℕ} :
    of? s n = none ↔ ¬(Calendar.Contains s ∧ n < 2000000000) := by
  unfold of?
  split <;> simp [*]

/-- Adding to an ordinary instant adds to its position. -/
theorem add?_eq_some_iff (ht : t.isOrdinary) :
    t.add? d = some u ↔ u.isOrdinary ∧ u.position = t.position + d.nanos := by
  have hd := d.seconds_add_nanos
  simp only [add?, ht, if_true, add?.normalise?, of?_eq_some_iff]
  constructor
  · rintro ⟨h1, h2⟩
    refine ⟨ordinary_of_nanos (by omega), ?_⟩
    simp only [position]
    omega
  · rintro ⟨hu, h⟩
    have := nanos_of_ordinary hu
    simp only [position] at h
    omega

theorem exists_ordinary {p : ℤ} (h : first.position ≤ p ∧ p ≤ last.position) :
    ∃ u : Instant, u.isOrdinary ∧ u.position = p := by
  simp only [position, first, last] at h
  have hs : Calendar.Contains (p / 1000000000) := by
    constructor <;> omega
  refine ⟨⟨p / 1000000000, (p % 1000000000).toNat, hs, by omega⟩, ?_, ?_⟩
  · exact ordinary_of_nanos (by show (p % 1000000000).toNat < _; omega)
  · simp only [position]
    omega

theorem sub?_eq_some_iff (ht : t.isOrdinary) :
    t.sub? d = some u ↔ u.isOrdinary ∧ u.position = t.position - d.nanos := by
  rw [sub?, add?_eq_some_iff ht, Span.neg_nanos, Int.sub_eq_add_neg]

/-- The sum exists up to an ordinary instant of the calendar that it does not pass. -/
theorem exists_add?_of_le (ht : t.isOrdinary) (hu : u.isOrdinary) (h0 : 0 ≤ d.nanos)
    (h : t.position + d.nanos ≤ u.position) :
    ∃ v, t.add? d = some v ∧ v.isOrdinary ∧ v.position = t.position + d.nanos := by
  have h1 := (position_mem_calendar ht).1
  have h2 := (position_mem_calendar hu).2
  obtain ⟨v, hv, hp⟩ := exists_ordinary (p := t.position + d.nanos) ⟨by omega, by omega⟩
  exact ⟨v, (add?_eq_some_iff ht).mpr ⟨hv, hp⟩, hv, hp⟩

/-! ### Whole milliseconds -/

/-- There are no digits below the millisecond. -/
def IsWholeMillis (t : Instant) : Prop := t.nanos % 1000000 = 0

instance (t : Instant) : Decidable t.IsWholeMillis :=
  inferInstanceAs (Decidable (t.nanos % 1000000 = 0))

theorem ofEpochMillis?_eq_some_iff {ms : ℤ} :
    ofEpochMillis? ms = some t ↔ t.isOrdinary ∧ t.position = ms * 1000000 := by
  rw [ofEpochMillis?, of?_eq_some_iff]
  constructor
  · rintro ⟨hs, hn⟩
    refine ⟨ordinary_of_nanos (by omega), ?_⟩
    unfold position
    omega
  · rintro ⟨ht, hp⟩
    have := nanos_of_ordinary ht
    unfold position at hp
    omega

theorem ofEpochMillis?_eq_none_iff {ms : ℤ} :
    ofEpochMillis? ms = none ↔ ¬Calendar.Contains (ms / 1000) := by
  rw [ofEpochMillis?, of?_eq_none_iff, not_congr]
  exact and_iff_left (by omega)

theorem ofEpochMillis?_wholeMillis {ms : ℤ} (h : ofEpochMillis? ms = some t) :
    t.IsWholeMillis := by
  obtain ⟨-, hnanos⟩ := of?_eq_some_iff.mp h
  rw [IsWholeMillis, hnanos]
  omega

theorem truncateToMillis_of_wholeMillis (h : t.IsWholeMillis) :
    t.truncateToMillis = t := by
  unfold truncateToMillis
  rw [IsWholeMillis] at h
  split_ifs
  · rfl
  · ext
    · rfl
    · show t.nanos - t.nanos % 1000000 = t.nanos
      rw [h, Nat.sub_zero]

/-- The instant lies in a leap second after the last second of the calendar. -/
def IsPastEnd (t : Instant) : Prop := t.seconds = Calendar.lastSecond ∧ t.isOrdinary = false

instance (t : Instant) : Decidable t.IsPastEnd :=
  inferInstanceAs (Decidable (t.seconds = Calendar.lastSecond ∧ t.isOrdinary = false))

theorem truncateToMillis_wholeMillis (t : Instant) :
    t.truncateToMillis.IsWholeMillis ∨ t.truncateToMillis.IsPastEnd := by
  unfold truncateToMillis
  split_ifs with h
  · exact Or.inr ⟨h.1.symm, by simpa using h.2⟩
  · left
    show (t.nanos - t.nanos % 1000000) % 1000000 = 0
    omega

@[simp] theorem truncateToMillis_seconds (t : Instant) :
    t.truncateToMillis.seconds = t.seconds := by
  unfold truncateToMillis
  split_ifs <;> rfl

theorem truncateToMillis_nanos (t : Instant) : t.truncateToMillis.nanos =
    if t.IsPastEnd then t.nanos else t.nanos - t.nanos % 1000000 := by
  have hend : (Calendar.lastSecond = t.seconds ∧ !t.isOrdinary) ↔ t.IsPastEnd := by
    rw [IsPastEnd, eq_comm, Bool.not_eq_true']
  unfold truncateToMillis
  simp only [hend]
  split_ifs <;> rfl

theorem truncateToMillis_isOrdinary (h : t.isOrdinary) : t.truncateToMillis.isOrdinary := by
  have hlt := nanos_of_ordinary h
  refine ordinary_of_nanos ?_
  rw [truncateToMillis_nanos]
  split_ifs <;> omega

theorem isPastEnd_truncateToMillis : t.truncateToMillis.IsPastEnd ↔ t.IsPastEnd := by
  simp only [IsPastEnd, isOrdinary, truncateToMillis_seconds, truncateToMillis_nanos,
    decide_eq_false_iff_not]
  split_ifs
  · rfl
  · omega

theorem truncateToMillis_of_pastEnd (h : t.IsPastEnd) : t.truncateToMillis = t :=
  if_pos ⟨h.1.symm, by simpa using h.2⟩

theorem truncateToMillis_eq_self_iff :
    t.truncateToMillis = t ↔ t.IsWholeMillis ∨ t.IsPastEnd := by
  constructor
  · intro h
    exact h ▸ truncateToMillis_wholeMillis t
  · rintro (h | h)
    · exact truncateToMillis_of_wholeMillis h
    · exact truncateToMillis_of_pastEnd h

theorem truncateToMillis_truncateToMillis (t : Instant) :
    t.truncateToMillis.truncateToMillis = t.truncateToMillis :=
  truncateToMillis_eq_self_iff.mpr (truncateToMillis_wholeMillis t)

/-! ### Leap seconds -/

/-- Nanoseconds since the epoch on a clock that stands still in leap seconds. -/
def clockReading (t : Instant) : ℤ := t.seconds * 1000000000 + min (t.nanos : ℤ) 1000000000

/-- The length of the leap second that an instant is in. -/
def leapNanos (t : Instant) : ℤ := if t.isOrdinary then 0 else 1000000000

theorem clockReading_mono (h : a ≤ b) : a.clockReading ≤ b.clockReading := by
  rw [le_iff] at h
  unfold clockReading
  omega

theorem not_isOrdinary_iff : ¬t.isOrdinary ↔ 1000000000 ≤ t.nanos := by
  simp [isOrdinary]

theorem le_of_add? (h0 : 0 ≤ d.nanos) (h : t.add? d = some u) : t ≤ u := by
  obtain ⟨hs, hn, hlt⟩ := Span.parts_of_nonneg h0
  rw [le_iff]
  simp only [add?, add?.normalise?] at h
  split_ifs at h with hord hout hback <;> rw [of?_eq_some_iff] at h
  · omega
  · rw [not_isOrdinary_iff] at hord
    omega
  · omega
  · omega

/-- A span that ends before another instant is shorter than the distance of the two on a clock; if
it starts in a leap second, it may be up to a second longer. -/
theorem clockReading_add_lt (h0 : 0 ≤ d.nanos) (h : t.add? d = some u) (hlt : u < v) :
    t.clockReading + d.nanos < v.clockReading + t.leapNanos := by
  obtain ⟨hs, hn, hn'⟩ := Span.parts_of_nonneg h0
  have hd := d.seconds_add_nanos
  rw [← not_le, le_iff] at hlt
  unfold clockReading leapNanos
  simp only [add?, add?.normalise?] at h
  split_ifs at h ⊢ with hord hout hback <;> rw [of?_eq_some_iff] at h
  · have := nanos_of_ordinary hord
    omega
  · rw [not_isOrdinary_iff] at hord
    omega
  · omega
  · rw [not_isOrdinary_iff] at hord
    omega

theorem clockReading_sub?_le (h0 : 0 ≤ d.nanos) (h : t.sub? d = some u) :
    t.clockReading ≤ u.clockReading + d.nanos := by
  obtain ⟨hs, hn, hn'⟩ := Span.parts_of_nonneg h0
  have hd := d.seconds_add_nanos
  have := t.nanos_lt
  unfold clockReading
  simp only [sub?, add?, add?.normalise?, Span.neg_wholeSeconds, Span.neg_nanosBeyondSeconds] at h
  split_ifs at h with hord hout hback <;> rw [of?_eq_some_iff] at h
  · have := nanos_of_ordinary hord
    omega
  · omega
  · omega
  · rw [not_isOrdinary_iff] at hord
    omega

/-- Where the calendar does not reach back a span, its start is closer than that. -/
theorem clockReading_sub?_none (h0 : 0 ≤ d.nanos) (h : t.sub? d = none) :
    t.clockReading ≤ first.clockReading + d.nanos := by
  obtain ⟨hs, hn, hn'⟩ := Span.parts_of_nonneg h0
  have hd := d.seconds_add_nanos
  have hlt := t.nanos_lt
  obtain ⟨hfirst, hlast⟩ := t.inCalendar
  have hzero : first.clockReading = Calendar.firstSecond * 1000000000 := by
    decide
  rw [hzero]
  unfold clockReading
  simp only [sub?, add?, add?.normalise?, Span.neg_wholeSeconds, Span.neg_nanosBeyondSeconds] at h
  split_ifs at h with hord hout hback <;> rw [of?_eq_none_iff] at h <;>
    simp only [Calendar.Contains] at h
  · have := nanos_of_ordinary hord
    omega
  · omega
  · rw [not_isOrdinary_iff] at hord
    omega
  · omega

end Instant

end RouteTraffic
