import RouteTraffic.Proofs.RecentSeries
import Mathlib.Data.Rat.Floor

/-! # Filled series, point by point

Where samples stand on whole milliseconds, a filled series is known in closed form
(`fillGaps_points`): the samples as they were given, and between two neighbours one synthetic point
for each interval that ends before the second of them, its value spread over the whole intervals of
the gap (`Bridges`).  No gap is long enough for a product of milliseconds to be cut off, or for an
instant to leave the calendar on the way.

A filled series has no gap that could be filled again (`fillGaps_of_within`), whatever the digits
below the millisecond, and its points are in order and within the window.  Filling is therefore
idempotent, and a chart that is drawn of its own points shows the same instants (`drawn_again`). -/

namespace RouteTraffic

variable {α : Type}

/-! ### Whole milliseconds -/

namespace Instant

variable {t u : Instant}

theorem position_of_wholeMillis (h : t.IsWholeMillis) : t.position = t.epochMillis * 1000000 := by
  unfold IsWholeMillis at h
  unfold position epochMillis
  omega

end Instant

/-- The milliseconds from one point to another. -/
def Point.millisTo (p q : Point α) : ℤ := q.time.epochMillis - p.time.epochMillis

theorem Point.distance_eq_millisTo {p q : Point α} (hp : p.time.IsWholeMillis)
    (hq : q.time.IsWholeMillis) : p.distance q = p.millisTo q * 1000000 := by
  rw [distance, millisTo, Instant.position_of_wholeMillis hp, Instant.position_of_wholeMillis hq,
    Int.sub_mul]

/-- In whole milliseconds the steps before the end of a gap are the intervals of the gap, a started
one included, but for the last. -/
theorem stepsBefore_eq {gap ms : ℤ} (hgap : 0 < gap) (hms : 0 < ms) :
    stepsBefore (gap * 1000000) (ms * 1000000) = (max 0 (⌈(gap : ℚ) / ms⌉ - 1)).toNat := by
  have hmsq : (0 : ℚ) < ms := by exact_mod_cast hms
  refine eq_of_forall_le_iff fun j => ?_
  have hceil : (j : ℤ) ≤ ⌈(gap : ℚ) / ms⌉ - 1 ↔ (j : ℤ) * ms < gap := by
    rw [Int.le_sub_one_iff, Int.lt_ceil, lt_div_iff₀ hmsq]
    exact_mod_cast Iff.rfl
  have hscale : (j : ℤ) * (ms * 1000000) < gap * 1000000 ↔ (j : ℤ) * ms < gap := by
    rw [← mul_assoc]
    exact mul_lt_mul_iff_of_pos_right (by norm_num)
  have hone : 1 ≤ ⌈(gap : ℚ) / ms⌉ :=
    Int.one_le_ceil_iff.mpr (div_pos (by exact_mod_cast hgap) hmsq)
  rw [le_stepsBefore_iff (by omega) (by omega), hscale, ← hceil]
  omega

theorem wholeSteps_eq {gap ms : ℤ} (hms : 0 < ms) :
    gap * 1000000 / (ms * 1000000) = ⌊(gap : ℚ) / ms⌋ := by
  obtain ⟨n, rfl⟩ := Int.eq_ofNat_of_zero_le hms.le
  rw [Int.mul_ediv_mul_of_pos_left _ _ (by norm_num), Int.cast_natCast,
    Rat.floor_intCast_div_natCast]

variable [Channel α]

/-! ### Between two neighbours -/

/-- What a filled series has between two neighbours: one point for each interval that ends before
the gap does, each an interval after the one before, their values spread evenly over the whole
intervals of the gap.  Up to the last of these no number of milliseconds is cut off, and no span or
instant out of reach. -/
structure Bridges (ms : ℤ) (start stop : Point α) (between : List (Point α)) : Prop where
  length_eq : (between.length : ℤ) = max 0 (⌈(start.millisTo stop : ℚ) / ms⌉ - 1)
  time_eq : ∀ j, (h : j < between.length) →
    Instant.ofEpochMillis? (start.time.epochMillis + (j + 1 : ℕ) * ms) = some between[j].time
  value_eq : ∀ j, (h : j < between.length) →
    let fraction : α :=
      Channel.ofNat (j + 1) / Channel.ofNat ⌊(start.millisTo stop : ℚ) / ms⌋.toNat
    between[j].value =
      ⟨start.value.sent + (stop.value.sent - start.value.sent) * fraction,
        start.value.received + (stop.value.received - start.value.received) * fraction⟩
  reach : ∀ j : ℕ, j ≤ ⌊(start.millisTo stop : ℚ) / ms⌋ →
    ms * j ≤ Span.maxMillis ∧ ((Span.ofMillis? (ms * j)).bind start.time.add?).isSome

theorem gapPoints_bridges {start stop : Point α} (hs : start.time.isOrdinary)
    (he : stop.time.isOrdinary) (hsw : start.time.IsWholeMillis) (hew : stop.time.IsWholeMillis)
    (h : start.NotLater stop) {ms : ℤ} (hms : 0 < ms) :
    Bridges ms start stop (gapPoints start stop ms) := by
  have hdistance := Point.distance_eq_millisTo hsw hew
  have hmsq : (0 : ℚ) < ms := by exact_mod_cast hms
  have hreach (j : ℕ) (hj : j ≤ ⌊(start.millisTo stop : ℚ) / ms⌋) :
      ms * j ≤ Span.maxMillis ∧ ((Span.ofMillis? (ms * j)).bind start.time.add?).isSome := by
    have hle : (j : ℤ) * ms ≤ start.millisTo stop := by
      rw [Int.le_floor, le_div_iff₀ hmsq] at hj
      exact_mod_cast hj
    obtain ⟨hspan, t, ht, -, -⟩ := exists_step hs he hms (j := j) (by
      rw [hdistance, ← mul_assoc]
      exact mul_le_mul_of_nonneg_right hle (by norm_num))
    exact ⟨hspan, by rw [ht]; rfl⟩
  rcases gapPoints_cases hs he hms with ⟨hgap, hnil⟩ | ⟨hd, hbridge⟩
  · -- a gap within the interval has no interval that ends before it
    have hle := (Instant.le_iff_position hs he).mp h
    have hspan : (stop.time.since start.time).nanos = start.distance stop :=
      Instant.since_nanos he hs
    have hshort : start.millisTo stop ≤ ms := by
      rw [Span.wholeMillis_le_iff hms.le] at hgap
      omega
    have hceil : ⌈(start.millisTo stop : ℚ) / ms⌉ ≤ 1 := by
      rw [Int.ceil_le, Int.cast_one, div_le_one hmsq]
      exact_mod_cast hshort
    rw [hnil]
    exact ⟨by simp; omega, nofun, nofun, hreach⟩
  · obtain ⟨hview, hordinary⟩ := bridge_eq hs he hms hd
    have hgap : 0 < start.millisTo stop := by omega
    rw [hdistance, stepsBefore_eq hgap hms, wholeSteps_eq hms] at hview
    have hlength := congrArg List.length hview
    rw [List.length_map, List.length_map, List.length_range'] at hlength
    have hpoint (j : ℕ) (hj : j < (bridge start stop ms).length) :
        (bridge start stop ms)[j].time.position =
            start.time.position + (j + 1 : ℕ) * (ms * 1000000) ∧
          (bridge start stop ms)[j].value = start.value.lerp stop.value
            (Channel.ofNat (j + 1) / Channel.ofNat ⌊(start.millisTo stop : ℚ) / ms⌋.toNat) := by
      have hget := List.getElem_of_eq hview (i := j) (by rwa [List.length_map])
      rw [List.getElem_map, List.getElem_map, List.getElem_range', one_mul, add_comm 1 j] at hget
      exact Prod.mk.inj hget
    rw [hbridge]
    refine ⟨by omega, fun j hj => ?_, fun j hj => (hpoint j hj).2, hreach⟩
    refine Instant.ofEpochMillis?_eq_some_iff.mpr ⟨hordinary _ (List.getElem_mem hj), ?_⟩
    rw [(hpoint j hj).1, Instant.position_of_wholeMillis hsw]
    ring

/-! ### The whole series -/

/-- A filled series is the series with the synthetic points put between each two neighbours. -/
theorem fillAfter_eq_flatMap (ms : ℤ) : ∀ (points : List (Point α)) (start : Point α),
    fillAfter ms start points = ((start :: points).zip points).flatMap fun pair =>
      gapPoints pair.1 pair.2 ms ++ [pair.2]
  | [], _ => rfl
  | p :: ps, start => by
      rw [fillAfter, List.zip_cons_cons, List.flatMap_cons, fillAfter_eq_flatMap ms ps p,
        List.append_assoc]
      rfl

omit [Channel α] in
theorem neighbours_of_mem_zip {points : List (Point α)} (hord : Ordered points)
    {pair : Point α × Point α} (h : pair ∈ points.zip points.tail) :
    pair.1 ∈ points ∧ pair.2 ∈ points ∧ pair.1.NotLater pair.2 := by
  obtain ⟨i, hi, rfl⟩ := List.getElem_of_mem h
  rw [List.length_zip, List.length_tail] at hi
  rw [List.getElem_zip, List.getElem_tail]
  exact ⟨List.getElem_mem _, List.getElem_mem _,
    List.pairwise_iff_getElem.mp hord i (i + 1) (by omega) (by omega) (by omega)⟩

omit [Channel α] in
theorem pairwise_of_forward {points : List (Point α)}
    (h : points.IsChain fun p q => p.time < q.time) :
    points.Pairwise fun p q => p.time < q.time := by
  rw [← List.isChain_map (f := Point.time) (R := (· < ·))] at h
  exact List.pairwise_map.mp h.pairwise

/-- **A filled series, point by point.**  Samples on whole milliseconds are kept as they are, and
between each two neighbours stand the points that bridge them, no fewer and no more.  Where each
sample is later than the one before, so is each point of the filled series. -/
theorem fillGaps_points (points : List (Point α)) (interval : Span) (hall : AllOrdinary points)
    (hwhole : ∀ p ∈ points, p.time.IsWholeMillis) (hord : Ordered points)
    (hms : 1 ≤ interval.wholeMillis) :
    let ms := interval.wholeMillis
    let filled := fillGaps points interval
    (filled = points.take 1 ++ (points.zip points.tail).flatMap fun pair =>
      gapPoints pair.1 pair.2 ms ++ [pair.2]) ∧
    (∀ pair ∈ points.zip points.tail,
      Bridges ms pair.1 pair.2 (gapPoints pair.1 pair.2 ms)) ∧
    points.Sublist filled ∧
    (points.Pairwise (fun p q => p.time < q.time) →
      filled.Pairwise fun p q => p.time < q.time) := by
  intro ms filled
  have hfilled : filled = fillGaps points interval := rfl
  clear_value filled
  cases points with
  | nil =>
      rw [fillGaps_nil] at hfilled
      subst hfilled
      exact ⟨rfl, List.forall_mem_nil _, List.Sublist.slnil, id⟩
  | cons p ps =>
      rw [fillGaps_cons hms] at hfilled
      subst hfilled
      refine ⟨congrArg (p :: ·) (fillAfter_eq_flatMap ms ps p), fun pair hpair => ?_,
        (sublist_fillAfter ms ps p).cons_cons p, fun hstrict => pairwise_of_forward ?_⟩
      · obtain ⟨hp, hq, hle⟩ := neighbours_of_mem_zip hord hpair
        exact gapPoints_bridges (hall _ hp) (hall _ hq) (hwhole _ hp) (hwhole _ hq) hle hms
      · refine fillAfter_isChain (List.IsChain.imp_of_mem_imp (fun q r hq hr hlt => ?_)
          hstrict.isChain)
        exact gapPoints_forward (hall q hq) (hall r hr) hms hlt

/-- Samples from one end of the calendar to the other, the first two at one instant, with intervals
of which not quite four fit in between: the three synthetic points run from the value of the second
sample to that of the third. -/
theorem fillGaps_points_whole_calendar :
    let late : Instant := ⟨Calendar.lastSecond, 999000000, by decide, by decide⟩
    let points : List (Point Float) :=
      [⟨.first, ⟨1.0, 0.0⟩⟩, ⟨.first, ⟨2.0, 9.0⟩⟩, ⟨late, ⟨8.0, 0.0⟩⟩]
    let interval : Span := .ofMillis 4136217026400000
    let filled := fillGaps points interval
    AllOrdinary points ∧ (∀ p ∈ points, p.time.IsWholeMillis) ∧ Ordered points ∧
      1 ≤ interval.wholeMillis ∧
      (filled = points.take 1 ++ (points.zip points.tail).flatMap fun pair =>
        gapPoints pair.1 pair.2 interval.wholeMillis ++ [pair.2]) ∧
      (∀ pair ∈ points.zip points.tail, Bridges interval.wholeMillis pair.1 pair.2
        (gapPoints pair.1 pair.2 interval.wholeMillis)) ∧
      points.Sublist filled ∧
      (points.Pairwise (fun p q => p.time < q.time) →
        filled.Pairwise fun p q => p.time < q.time) := by
  intro late points interval filled
  have hall : AllOrdinary points := by
    show ∀ p ∈ points, p.time.isOrdinary
    decide
  have hwhole : ∀ p ∈ points, p.time.IsWholeMillis := by decide
  have hord : Ordered points := by
    show points.Pairwise Point.NotLater
    decide
  have hms : 1 ≤ interval.wholeMillis := by decide
  exact ⟨hall, hwhole, hord, hms, fillGaps_points points interval hall hwhole hord hms⟩

example :
    let late : Instant := ⟨Calendar.lastSecond, 999000000, by decide, by decide⟩
    ((fillGaps [⟨.first, ⟨2.0, 9.0⟩⟩, ⟨late, (⟨8.0, 0.0⟩ : Traffic Float)⟩]
      (.ofMillis 4136217026400000)).map (·.value.sent)) = [2.0, 4.0, 6.0, 8.0, 8.0] := by
  decide

/-! ### Filling again -/

omit [Channel α] in
theorem inWindow_of_ordered {points : List (Point α)} (hord : Ordered points) {now : Instant}
    {window : Span} (h : ∀ p ∈ points, windowStart now window ≤ p.time) :
    inWindow points now window = points := by
  rw [inWindow, List.filter_eq_self.mpr fun p hp => by simpa using h p hp,
    sortByTime_of_ordered hord]

theorem fillAfter_of_within {ms : ℤ} : ∀ {points : List (Point α)} {start : Point α},
    (start :: points).IsChain (Point.Within ms) → fillAfter ms start points = points
  | [], _, _ => rfl
  | p :: ps, start, h => by
      obtain ⟨hfirst, hrest⟩ := List.isChain_cons_cons.mp h
      rw [fillAfter, gapPoints, if_neg (not_lt.mpr hfirst.2), fillAfter_of_within hrest,
        List.nil_append]

theorem fillGaps_of_within {points : List (Point α)} {interval : Span}
    (h : points.IsChain (Point.Within interval.wholeMillis)) :
    fillGaps points interval = points := by
  rcases fillGaps_cases points interval with hfill | ⟨p, ps, rfl, -, hfill⟩
  · exact hfill
  · rw [hfill, fillAfter_of_within h]

theorem fillGaps_fillGaps {points : List (Point α)} (hall : AllOrdinary points)
    (hord : Ordered points) (interval : Span) :
    fillGaps (fillGaps points interval) interval = fillGaps points interval := by
  by_cases hms : 0 < interval.wholeMillis
  · exact fillGaps_of_within (fillGaps_within hall hord hms).1
  · rw [fillGaps_of_nonpos (not_lt.mp hms), fillGaps_of_nonpos (not_lt.mp hms)]

/-- The points of a chart are in order, within the window, and without a gap to fill. -/
theorem recentSeries_settled {points : List (Point α)} (hall : AllOrdinary points) (now : Instant)
    (config : SeriesConfig) :
    let shown := recentSeries points now config
    Ordered shown ∧ (∀ p ∈ shown, windowStart now config.window ≤ p.time) ∧
      fillGaps shown config.interval = shown := by
  intro shown
  by_cases hms : 0 < config.interval.wholeMillis
  · obtain ⟨hchain, hstart⟩ := recentSeries_within hall hms now
    exact ⟨ordered_of_within hchain, fun p hp => (hstart p hp).2, fillGaps_of_within hchain⟩
  · have hnone := fillGaps_of_nonpos (α := α) (not_lt.mp hms)
    have htimes := movingAverage_times (inWindow points now config.window) config.smoothing
    have hshown : shown = movingAverage (inWindow points now config.window) config.smoothing := by
      show movingAverage (fillGaps _ _) _ = _
      rw [hnone]
    rw [hshown]
    refine ⟨?_, forall_of_times htimes fun p hp => (mem_inWindow.mp hp).2, hnone _⟩
    have hord := inWindow_ordered points now config.window
    exact (isChain_of_times (R := (· ≤ ·)) htimes hord.isChain).pairwise

/-- **Drawing a chart of its own points.**  A filled series is not filled any further, and the
chart of the points of a chart shows the same instants. -/
theorem drawn_again (points : List (Point α)) (hall : AllOrdinary points) :
    (∀ interval, Ordered points →
      fillGaps (fillGaps points interval) interval = fillGaps points interval) ∧
    ∀ (now : Instant) (config : SeriesConfig),
      let shown := recentSeries points now config
      (recentSeries shown now config).map Point.time = shown.map Point.time := by
  refine ⟨fun interval hord => fillGaps_fillGaps hall hord interval, fun now config => ?_⟩
  intro shown
  obtain ⟨hord, hstart, hfilled⟩ := recentSeries_settled hall now config
  show (movingAverage (fillGaps (inWindow shown now config.window) _) _).map _ = _
  rw [inWindow_of_ordered hord hstart, hfilled, movingAverage_times]

/-- Samples half a millisecond off the grid of the interval, the last of them an interval and
almost a millisecond after the one before. -/
theorem drawn_again_off_grid :
    let time (seconds : ℤ) (nanos : ℕ) := (Instant.of? seconds nanos).getD .first
    let points : List (Point Float) := [⟨time 0 500000, ⟨0.0, 9.0⟩⟩, ⟨time 150 0, ⟨5.0, 0.0⟩⟩,
      ⟨time 210 999999, ⟨1.0, 1.0⟩⟩]
    AllOrdinary points ∧ Ordered points ∧
      (∀ interval, Ordered points →
        fillGaps (fillGaps points interval) interval = fillGaps points interval) ∧
      ∀ (now : Instant) (config : SeriesConfig),
        let shown := recentSeries points now config
        (recentSeries shown now config).map Point.time = shown.map Point.time := by
  intro time points
  have hall : AllOrdinary points := by
    show ∀ p ∈ points, p.time.isOrdinary
    decide
  have hord : Ordered points := by
    show points.Pairwise Point.NotLater
    decide
  exact ⟨hall, hord, drawn_again points hall⟩

end RouteTraffic
