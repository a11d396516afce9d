import RouteTraffic.Chart
import RouteTraffic.Proofs.MergedPoints
import RouteTraffic.Proofs.RecentSeries
import RouteTraffic.Settings

/-! # Spacing of chart points

Settings that pass their checks give a window and an interval of at least a millisecond
(`seriesConfig_pos`), and every selection shows instants of ordinary points only
(`select_ordinary`).  So the points of every chart run forward in time from the start of the
window without a gap longer than the interval (`Chart.build_spaced`). -/

namespace RouteTraffic

/-! ### Checked settings -/

namespace Settings

theorem spanOf_pos {key text : String} {span : Span} (h : spanOf key text = .ok span) :
    0 ≤ span.nanos ∧ 0 < span.wholeMillis := by
  unfold spanOf at h
  cases hd : durationOf key text with
  | error e => simp [hd, bind, Except.bind] at h
  | ok nanos =>
      simp only [hd, bind, Except.bind] at h
      split at h
      case isTrue => cases h
      case isFalse hpos =>
        cases h
        exact ⟨Int.natCast_nonneg nanos, not_le.mp hpos⟩

theorem seriesConfig_pos {settings : Settings} {config : SeriesConfig}
    (h : settings.seriesConfig = .ok config) :
    0 ≤ config.window.nanos ∧ 0 < config.interval.wholeMillis := by
  unfold seriesConfig at h
  cases hw : spanOf "window" settings.window with
  | error e => simp [hw, bind, Except.bind] at h
  | ok window =>
      cases hi : spanOf "interval" settings.interval with
      | error e => simp [hw, hi, bind, Except.bind] at h
      | ok interval =>
          simp only [hw, hi, bind, Except.bind] at h
          split at h
          case isTrue => cases h
          case isFalse =>
            cases h
            exact ⟨(spanOf_pos hw).1, (spanOf_pos hi).2⟩

end Settings

/-! ### Selected points -/

theorem mergeByMillis_ordinary {α : Type} [Channel α] {points : List (Point α)}
    (h : AllOrdinary points) : AllOrdinary (mergeByMillis points) := by
  intro q hq
  obtain ⟨p, hp, htime⟩ := mem_times_mergeByMillis.mp (List.mem_map_of_mem hq)
  exact htime ▸ Instant.truncateToMillis_isOrdinary (h p hp)

theorem mem_of_findRoute? {routes : List Route} {key : UInt32} {found : Route × ℕ}
    (h : findRoute? routes key = some found) : found.1 ∈ routes :=
  List.fst_mem_of_mem_zipIdx (List.mem_of_find?_eq_some h)

theorem select_ordinary {routes : List Route}
    (h : ∀ r ∈ routes, ∀ s ∈ r.stats, AllOrdinary s.points) (selection : Selection) :
    AllOrdinary (select routes selection).series.points := by
  cases selection with
  | all =>
      apply mergeByMillis_ordinary
      intro p hp
      obtain ⟨s, hs, hps⟩ := List.mem_flatMap.mp hp
      obtain ⟨r, hr, hrs⟩ := List.mem_filterMap.mp (List.mem_of_mem_filter hs)
      exact h r hr s hrs p hps
  | route key =>
      have hempty : AllOrdinary (Series.empty : Series Float).points := fun p hp => by cases hp
      simp only [select]
      cases hfound : findRoute? routes key with
      | none => exact hempty
      | some found =>
          cases hstats : found.1.stats with
          | none => simpa only [hstats] using hempty
          | some s => simpa only [hstats] using h found.1 (mem_of_findRoute? hfound) s hstats

/-! ### Charts -/

/-- **Charts have no gaps.**  Whatever the samples and their order, the points of a chart run
forward in time, start no earlier than the window or the calendar does, and follow each other
within the interval, distances counted in whole milliseconds. -/
theorem Chart.build_spaced (settings : Settings) (config : SeriesConfig)
    (hconfig : settings.seriesConfig = .ok config) (routes : List Route)
    (hroutes : ∀ r ∈ routes, ∀ s ∈ r.stats, AllOrdinary s.points) (selection : Selection)
    (now : Instant) (hnow : now.isOrdinary) :
    let points := (Chart.build routes selection now config).points
    points.Pairwise (fun p q => p.time ≤ q.time) ∧
      (∀ p ∈ points, p.time.isOrdinary ∧
        max Instant.first.position (now.position - config.window.nanos) ≤ p.time.position) ∧
      points.IsChain fun p q =>
        (q.time.since p.time).wholeMillis ≤ config.interval.wholeMillis := by
  intro points
  obtain ⟨hwindow, hpos⟩ := Settings.seriesConfig_pos hconfig
  obtain ⟨hchain, hbounds⟩ := recentSeries_within (select_ordinary hroutes selection) hpos now
  obtain ⟨hstart, hposition⟩ := windowStart_position hnow hwindow
  refine ⟨ordered_of_within hchain, fun p hp => ?_, hchain.imp fun _ _ h => h.2⟩
  obtain ⟨hp, hle⟩ := hbounds p hp
  rw [← hposition]
  exact ⟨hp, (Instant.le_iff_position hstart hp).mp hle⟩

/-- Two samples at the end of the calendar, the later one first, charted with the settings that
hold where none are given. -/
theorem Chart.build_spaced_at_last :
    let early : Instant := ⟨Calendar.lastSecond - 300, 999, by decide, by decide⟩
    let routes : List Route :=
      [{ stats := some ⟨[⟨.last, ⟨300.0, 0.0⟩⟩, ⟨early, ⟨0.0, 8.0⟩⟩], ⟨300.0, 8.0⟩⟩ }]
    let points := (Chart.build routes .all .last .standard).points
    Settings.seriesConfig {} = .ok .standard ∧ Instant.last.isOrdinary ∧ early.isOrdinary ∧
      points.Pairwise (fun p q => p.time ≤ q.time) ∧
      (∀ p ∈ points, p.time.isOrdinary ∧ max Instant.first.position
        (Instant.last.position - SeriesConfig.standard.window.nanos) ≤ p.time.position) ∧
      points.IsChain fun p q =>
        (q.time.since p.time).wholeMillis ≤ SeriesConfig.standard.interval.wholeMillis := by
  intro early routes points
  have hconfig : Settings.seriesConfig {} = .ok .standard := by rfl
  have hearly : early.isOrdinary := by decide
  have hlast : Instant.last.isOrdinary := by decide
  refine ⟨hconfig, hlast, hearly,
    Chart.build_spaced {} .standard hconfig routes ?_ .all .last hlast⟩
  simp [routes, AllOrdinary, hearly, hlast]

end RouteTraffic
