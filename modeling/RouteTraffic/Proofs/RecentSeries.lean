import RouteTraffic.Proofs.GapFilling

/-! # The recent part of a series

The window keeps the points from its start on, in the order of time (`mem_inWindow`,
`inWindow_ordered`), and smoothing changes values and no instants (`movingAverage_times`).  What
filling the gaps says of instants therefore holds of the recent part of a series as a whole
(`recentSeries_within`).  Of values, what holds in the window, on bridges and of means holds of
all that is drawn (`forall_mem_recentSeries`). -/

namespace RouteTraffic

variable {α : Type}

/-! ### The window -/

/-- On the line of nanoseconds the window starts its length before `now`, or where the calendar
starts. -/
theorem windowStart_position {now : Instant} (hnow : now.isOrdinary) {window : Span}
    (hwindow : 0 ≤ window.nanos) :
    (windowStart now window).isOrdinary ∧
      (windowStart now window).position =
        max Instant.first.position (now.position - window.nanos) := by
  unfold windowStart
  cases h : now.sub? window with
  | some t =>
      obtain ⟨ht, hp⟩ := (Instant.sub?_eq_some_iff hnow).mp h
      have hfirst := (Instant.position_mem_calendar ht).1
      rw [Option.getD_some, ← hp]
      exact ⟨ht, (max_eq_right hfirst).symm⟩
  | none =>
      refine ⟨Instant.first_isOrdinary, (max_eq_left (not_lt.mp fun hlt => ?_)).symm⟩
      have hlast := (Instant.position_mem_calendar hnow).2
      obtain ⟨t, ht, hp⟩ :=
        Instant.exists_ordinary (p := now.position - window.nanos) ⟨hlt.le, by omega⟩
      rw [(Instant.sub?_eq_some_iff hnow).mpr ⟨ht, hp⟩] at h
      cases h

theorem clockReading_windowStart (now : Instant) {window : Span} (h : 0 ≤ window.nanos) :
    now.clockReading ≤ (windowStart now window).clockReading + window.nanos := by
  unfold windowStart
  cases hsub : now.sub? window with
  | some t => exact Instant.clockReading_sub?_le h hsub
  | none => exact Instant.clockReading_sub?_none h hsub

theorem mem_inWindow {p : Point α} {points : List (Point α)} {now : Instant} {window : Span} :
    p ∈ inWindow points now window ↔ p ∈ points ∧ windowStart now window ≤ p.time := by
  rw [inWindow, mem_sortByTime, List.mem_filter, decide_eq_true_iff]

theorem inWindow_ordered (points : List (Point α)) (now : Instant) (window : Span) :
    Ordered (inWindow points now window) := sortByTime_ordered _

/-! ### Smoothing -/

theorem isChain_of_times {R : Instant → Instant → Prop} {ps qs : List (Point α)}
    (h : ps.map Point.time = qs.map Point.time)
    (hqs : qs.IsChain (fun p q => R p.time q.time)) : ps.IsChain (fun p q => R p.time q.time) := by
  rw [← List.isChain_map Point.time] at hqs ⊢
  rwa [h]

theorem forall_of_times {P : Instant → Prop} {ps qs : List (Point α)}
    (h : ps.map Point.time = qs.map Point.time) (hqs : ∀ q ∈ qs, P q.time) :
    ∀ p ∈ ps, P p.time := by
  intro p hp
  have hmem : p.time ∈ qs.map Point.time := h ▸ List.mem_map_of_mem hp
  obtain ⟨q, hq, he⟩ := List.mem_map.mp hmem
  exact he ▸ hqs q hq

variable [Channel α]

theorem smoothAfter_times (width : ℕ) : ∀ (before : List (Traffic α)) (points : List (Point α)),
    (smoothAfter width before points).map Point.time = points.map Point.time
  | _, [] => rfl
  | before, p :: ps => by
      simp only [smoothAfter, List.map_cons]
      rw [smoothAfter_times width _ ps]

theorem movingAverage_times (points : List (Point α)) (width : ℕ) :
    (movingAverage points width).map Point.time = points.map Point.time :=
  smoothAfter_times _ _ _

theorem forall_mem_smoothAfter {P R : Traffic α → Prop} {width : ℕ} (hwidth : 0 < width)
    (hmean : ∀ values : List (Traffic α), 0 < values.length → values.length ≤ width →
      (∀ v ∈ values, P v) → R ((Traffic.sum values).divideBy values.length)) :
    ∀ {points : List (Point α)} {before : List (Traffic α)}, (∀ v ∈ before, P v) →
      (∀ p ∈ points, P p.value) → ∀ q ∈ smoothAfter width before points, R q.value
  | [], _, _, _ => List.forall_mem_nil _
  | p :: ps, before, hbefore, h => by
      obtain ⟨hp, hps⟩ := List.forall_mem_cons.mp h
      have hvalues : ∀ v ∈ (p.value :: before).take width, P v := by
        intro v hv
        rcases List.mem_cons.mp (List.mem_of_mem_take hv) with rfl | hv
        · exact hp
        · exact hbefore v hv
      have hone := hmean ((p.value :: before).take width).reverse
        (by simp [hwidth]) (by simp) (by simpa using hvalues)
      rw [List.length_reverse] at hone
      exact List.forall_mem_cons.mpr ⟨hone, forall_mem_smoothAfter hwidth hmean hvalues hps⟩

/-! ### The recent part as a whole -/

variable {points : List (Point α)} {config : SeriesConfig}

/-- What is drawn is known by what holds of the values in the window, with any two values of those
on a bridge between them, and of means. -/
theorem forall_mem_recentSeries {P R : Traffic α → Prop} {now : Instant}
    (hbridge : ∀ (start stop : Point α) (ms : ℤ), 0 < ms → P start.value → P stop.value →
      ∀ q ∈ bridge start stop ms, P q.value)
    (hmean : ∀ values : List (Traffic α), 0 < values.length →
      values.length ≤ max config.smoothing 1 → (∀ v ∈ values, P v) →
        R ((Traffic.sum values).divideBy values.length))
    (h : ∀ p ∈ inWindow points now config.window, P p.value) :
    ∀ q ∈ recentSeries points now config, R q.value := by
  have hfilled : ∀ q ∈ fillGaps (inWindow points now config.window) config.interval, P q.value :=
    forall_mem_fillGaps (Q := fun p => P p.value)
      (fun hms p q hp hq => forall_mem_gapPoints (hbridge p q _ hms hp hq)) h
  exact forall_mem_smoothAfter (by omega) hmean (List.forall_mem_nil _) hfilled

/-- **The recent part of a series** has no two neighbours further apart than the interval, stays
out of leap seconds, and goes back no further than the window. -/
theorem recentSeries_within (hall : AllOrdinary points)
    (hpos : 0 < config.interval.wholeMillis) (now : Instant) :
    (recentSeries points now config).IsChain (Point.Within config.interval.wholeMillis) ∧
      ∀ p ∈ recentSeries points now config,
        p.time.isOrdinary ∧ windowStart now config.window ≤ p.time := by
  have hkept : AllOrdinary (inWindow points now config.window) :=
    fun p hp => hall p (mem_inWindow.mp hp).1
  have hord := inWindow_ordered points now config.window
  have htimes := movingAverage_times
    (fillGaps (inWindow points now config.window) config.interval) config.smoothing
  obtain ⟨hchain, hordinary⟩ := fillGaps_within hkept hord hpos
  have hstart := le_of_mem_fillGaps hkept hord hpos fun p hp => (mem_inWindow.mp hp).2
  exact ⟨isChain_of_times (R := fun a b => a ≤ b ∧
      (b.since a).wholeMillis ≤ config.interval.wholeMillis) htimes hchain,
    forall_of_times (P := fun t => t.isOrdinary ∧ windowStart now config.window ≤ t) htimes
      fun q hq => ⟨hordinary q hq, hstart q hq⟩⟩

end RouteTraffic
