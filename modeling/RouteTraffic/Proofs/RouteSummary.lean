import RouteTraffic.Chart
import RouteTraffic.Proofs.MergedPoints
import RouteTraffic.Proofs.RouteKeys

/-! # The summary of routes

The summary has one point for each millisecond in which a route reports a sample.  Its value is the
sum of the samples there, and its total is the sum of the totals of the routes that report any
(`summarize_by_millis`).  The instants of the summary do not depend on the order of the routes, nor
on the order of the samples of each.

Where a single route reports, at instants that differ and have no digits below the millisecond,
merging its samples is sorting them (`mergeByTime_of_nodup`).  The window sorts them anyway, so the
chart of all routes is the chart of that route (`Chart.build_all_of_lone`).  The summary itself
shows the samples of a single route as they are only if they ascend in time, and no instant has
digits below the millisecond (`summarize_singleton_eq_iff`), apart from those past the end of the
calendar (`summarize_singleton_past_end`). -/

namespace RouteTraffic

/-! ### The samples of routes -/

/-- The samples that a route reports. -/
def Route.samples (r : Route) : List (Point Float) :=
  match r.stats with
  | some s => s.points
  | none => []

/-- The same samples, with the routes in any order and the samples of each in any order. -/
def Rearranged (routes others : List Route) : Prop :=
  ∃ moved, routes.Perm moved ∧
    List.Forall₂ (fun r r' : Route => r.samples.Perm r'.samples) moved others

theorem stats_of_reporting (routes : List Route) :
    (routes.filterMap (·.stats)).filter (fun s => !s.isEmpty) =
      (routes.filter (·.hasSamples)).filterMap (·.stats) := by
  induction routes with
  | nil => rfl
  | cons r rest ih =>
      rw [List.filterMap_cons, List.filter_cons]
      cases hstats : r.stats with
      | none => simpa [Route.hasSamples, hstats] using ih
      | some s => cases hempty : s.isEmpty <;> simp [Route.hasSamples, hstats, hempty, ih]

theorem flatMap_samples (routes : List Route) :
    routes.flatMap Route.samples = (routes.filterMap (·.stats)).flatMap (·.points) := by
  induction routes with
  | nil => rfl
  | cons r rest ih =>
      rw [List.flatMap_cons, List.filterMap_cons, ih, Route.samples]
      cases r.stats <;> rfl

theorem summarize_points (routes : List Route) :
    (summarize routes).points =
      mergeByMillis ((routes.filter (·.hasSamples)).flatMap Route.samples) := by
  rw [flatMap_samples, ← stats_of_reporting]
  rfl

theorem summarize_total (routes : List Route) :
    (summarize routes).total =
      ((routes.filter (·.hasSamples)).filterMap (·.stats)).foldl (fun sum s => sum + s.total) 0 := by
  rw [← stats_of_reporting, ← List.foldl_map]
  rfl

theorem Rearranged.samples_perm {routes others : List Route} (h : Rearranged routes others) :
    (routes.flatMap Route.samples).Perm (others.flatMap Route.samples) := by
  obtain ⟨moved, hmoved, hsamples⟩ := h
  refine (hmoved.flatMap_right Route.samples).trans ?_
  clear hmoved
  induction hsamples with
  | nil => exact List.Perm.nil
  | cons hr _ ih =>
      rw [List.flatMap_cons, List.flatMap_cons]
      exact hr.append ih

/-! ### The summary -/

theorem mem_times_summarize {routes : List Route} {t : Instant} :
    t ∈ (summarize routes).points.map Point.time ↔
      ∃ p ∈ routes.flatMap Route.samples, p.time.truncateToMillis = t := by
  show t ∈ (Series.summary _).points.map Point.time ↔ _
  rw [Series.summary_points, mem_times_mergeByMillis, flatMap_samples]

theorem summarize_ascending (routes : List Route) : Ascending (summarize routes).points := by
  rw [summarize_points, mergeByMillis_eq]
  exact mergeByTime_ascending _

/-- **The summary of routes.**  Its points ascend in time.  They stand at the milliseconds in which
a route reports a sample, each with the sum of the samples there, added in the order of the routes
and of their samples from the first on.  Its total adds up the totals of the routes that report
samples.  In whatever order the routes and their samples come, the instants are the same. -/
theorem summarize_by_millis (routes : List Route) :
    let reporting := routes.filter (·.hasSamples)
    let samples := reporting.flatMap Route.samples
    let summary := summarize routes
    summary.points.Pairwise (fun p q => p.time < q.time) ∧
      (∀ t, t ∈ summary.points.map Point.time ↔
        ∃ r ∈ reporting, ∃ p ∈ r.samples, p.time.truncateToMillis = t) ∧
      (∀ q ∈ summary.points, ∃ first rest,
        (samples.filter fun p => p.time.truncateToMillis = q.time).map Point.value =
            first :: rest ∧ q.value = rest.foldl (· + ·) first) ∧
      summary.total = (reporting.filterMap (·.stats)).foldl (fun sum s => sum + s.total) 0 ∧
      ∀ others, Rearranged routes others →
        (summarize others).points.map Point.time = summary.points.map Point.time := by
  intro reporting samples summary
  have hpoints : summary.points = mergeByMillis samples := summarize_points routes
  refine ⟨summarize_ascending routes, fun t => ?_, fun q hq => ?_, summarize_total routes,
    fun others h => ?_⟩
  · rw [hpoints, mem_times_mergeByMillis]
    simp only [samples, List.mem_flatMap]
    constructor
    · rintro ⟨p, ⟨r, hr, hp⟩, ht⟩
      exact ⟨r, hr, p, hp, ht⟩
    · rintro ⟨r, hr, p, hp, ht⟩
      exact ⟨p, ⟨r, hr, hp⟩, ht⟩
  · exact value_of_mem_mergeByMillis (hpoints ▸ hq)
  · have hascending (rs : List Route) :
        ((summarize rs).points.map Point.time).Pairwise (· < ·) :=
      List.pairwise_map.mpr (summarize_ascending rs)
    refine (hascending others).eq_of_mem_iff (hascending routes) fun t => ?_
    rw [mem_times_summarize, mem_times_summarize]
    simp only [h.samples_perm.mem_iff]

/-- One route reports twice within a millisecond and goes back in time, another reports once more in
that millisecond, and the total of a third, which reports nothing, does not count. -/
theorem summarize_by_millis_shared :
    let time (s : ℤ) (n : ℕ) := (Instant.of? s n).getD .first
    let early : List (Point Float) := [⟨time 60 7250000, ⟨8.0, 1.0⟩⟩, ⟨time 0 0, ⟨1.0, 0.0⟩⟩]
    let late : Point Float := ⟨time 60 7000000, ⟨4.0, 0.0⟩⟩
    let web (samples : List (Point Float)) : Route := { stats := some ⟨samples, ⟨100.0, 10.0⟩⟩ }
    let ssh : Route := { stats := some ⟨[⟨time 60 7999999, ⟨2.0, 0.0⟩⟩], ⟨5.0, 5.0⟩⟩ }
    let idle : Route := { stats := some ⟨[], ⟨1000.0, 1000.0⟩⟩ }
    let routes := [web (early ++ [late]), idle, ssh]
    let others := [ssh, web ([late] ++ early), idle]
    Rearranged routes others ∧
      (summarize others).points.map Point.time = (summarize routes).points.map Point.time ∧
      (summarize routes).points.map (fun p => (p.time.epochMillis, p.value.sent)) =
        [(0, 1.0), (60007, 14.0)] ∧
      (summarize routes).total = ⟨105.0, 15.0⟩ := by
  intro time early late web ssh idle routes others
  have hrearranged : Rearranged routes others := by
    have hmoved : ([web (early ++ [late]), idle] ++ [ssh]).Perm
        ([ssh] ++ [web (early ++ [late]), idle]) := List.perm_append_comm
    refine ⟨_, hmoved, .cons (.refl _) (.cons ?_ (.cons (.refl _) .nil))⟩
    exact List.perm_append_comm
  have hsummary := summarize_by_millis routes
  exact ⟨hrearranged, hsummary.2.2.2.2 others hrearranged, by decide, by decide⟩

/-! ### A lone reporter -/

theorem Route.shown_points (r : Route) (i : ℕ) : (r.shown i).series.points = r.samples := by
  unfold shown samples
  cases r.stats <;> rfl

/-- Where one route reports, at different whole milliseconds, the summary sorts its samples. -/
theorem summarize_points_of_lone {routes : List Route} {r : Route}
    (hlone : routes.filter (·.hasSamples) = [r]) (hwhole : ∀ p ∈ r.samples, p.time.IsWholeMillis)
    (hdistinct : (r.samples.map Point.time).Nodup) :
    (summarize routes).points = sortByTime r.samples := by
  rw [summarize_points, hlone, List.flatMap_singleton, mergeByMillis_of_wholeMillis hwhole,
    mergeByTime_of_nodup hdistinct]

/-- **The summary of a single route.**  It has the samples of the route as they are if and only if
each is later than the one before and none has digits below the millisecond, except past the end of
the calendar, where digits stay.  Its total is that of the route, added to zero. -/
theorem summarize_singleton_eq_iff {r : Route} {s : Series Float} (hstats : r.stats = some s)
    (hsome : s.points ≠ []) :
    ((summarize [r]).points = s.points ↔
        s.points.Pairwise (fun p q => p.time < q.time) ∧
          ∀ p ∈ s.points, p.time.IsWholeMillis ∨ p.time.IsPastEnd) ∧
      (summarize [r]).total = 0 + s.total := by
  have hreports : r.hasSamples = true := by
    simpa [Route.hasSamples, hstats, Series.isEmpty] using hsome
  have hreporting : [r].filter (·.hasSamples) = [r] := List.filter_cons_of_pos hreports
  have hsamples : r.samples = s.points := by
    rw [Route.samples, hstats]
  constructor
  · rw [summarize_points, hreporting, List.flatMap_singleton, hsamples, mergeByMillis_eq_self_iff]
    simp only [Instant.truncateToMillis_eq_self_iff]
    rfl
  · rw [summarize_total, hreporting, List.filterMap_cons_some hstats]
    rfl

/-- Three samples, one of them before the epoch and one in a leap second; the total, which is not
their sum, has a negative zero. -/
theorem summarize_singleton_eq_iff_leapSecond :
    let time (s : ℤ) (n : ℕ) := (Instant.of? s n).getD .first
    let s : Series Float :=
      ⟨[⟨time (-1) 999000000, ⟨1.0, 0.0⟩⟩, ⟨time 1483228799 1500000000, ⟨-0.0, 2.0⟩⟩,
        ⟨time 1483228800 0, ⟨4.0, 8.0⟩⟩], ⟨-0.0, 700.0⟩⟩
    let r : Route := { stats := some s }
    r.stats = some s ∧ s.points ≠ [] ∧ (summarize [r]).points = s.points ∧
      (summarize [r]).total = 0 + s.total ∧ (0 : Traffic Float) + s.total = ⟨0.0, 700.0⟩ := by
  intro time s r
  have hsome : s.points ≠ [] := by simp [s]
  have hsummary := summarize_singleton_eq_iff (r := r) rfl hsome
  exact ⟨rfl, hsome, hsummary.1.mpr (by decide), hsummary.2, by decide⟩

/-- In a leap second past the end of the calendar a sample is shown as it is, with its digits below
the millisecond. -/
theorem summarize_singleton_past_end :
    let p : Point Float := ⟨⟨Calendar.lastSecond, 1123456789, by decide, by decide⟩, 0⟩
    (summarize [{ stats := some ⟨[p], 0⟩ }]).points = [p] ∧ ¬ p.time.IsWholeMillis := by
  intro p
  exact ⟨by rfl, by decide⟩

theorem inWindow_sortByTime {α : Type} (points : List (Point α)) (now : Instant) (window : Span) :
    inWindow (sortByTime points) now window = inWindow points now window := by
  apply sortByTime_congr
  intro t
  rw [List.filter_comm, filter_sortByTime, List.filter_comm]

/-- **The summary of a lone reporter.**  Where exactly one route reports samples, at different whole
milliseconds and in any order, the chart of all routes has the points of the chart of that route,
by whatever number it is found. -/
theorem Chart.build_all_of_lone {routes : List Route} {r : Route}
    (hlone : routes.filter (·.hasSamples) = [r]) (hwhole : ∀ p ∈ r.samples, p.time.IsWholeMillis)
    (hdistinct : (r.samples.map Point.time).Nodup) {key : UInt32} {i : ℕ}
    (hfound : findRoute? routes key = some (r, i)) (now : Instant) (config : SeriesConfig) :
    (build routes .all now config).points = (build routes (.route key) now config).points := by
  have hroute : (select routes (.route key)).series.points = r.samples := by
    rw [select_of_findRoute? hfound, r.shown_points]
  show recentSeries (summarize routes).points now config =
    recentSeries (select routes (.route key)).series.points now config
  rw [hroute, summarize_points_of_lone hlone hwhole hdistinct, recentSeries, recentSeries,
    inWindow_sortByTime]

/-- The second of three routes reports, three samples that go back in time; it has no key. -/
theorem Chart.build_all_of_lone_backwards :
    let time (ms : ℤ) := (Instant.ofEpochMillis? ms).getD .first
    let ssh : Route :=
      { stats := some ⟨[⟨time 330000, ⟨7.0, 1.0⟩⟩, ⟨time 0, ⟨0.0, 9.0⟩⟩,
          ⟨time 150000, ⟨5.0, 0.0⟩⟩], ⟨12.0, 10.0⟩⟩ }
    let routes : List Route := [{ key := some 4, stats := some .empty }, ssh, {}]
    let drawn (selection : Selection) := (build routes selection (time 600001) .standard).points
    routes.filter (·.hasSamples) = [ssh] ∧ (∀ p ∈ ssh.samples, p.time.IsWholeMillis) ∧
      (ssh.samples.map Point.time).Nodup ∧ findRoute? routes 1 = some (ssh, 1) ∧
      drawn .all = drawn (.route 1) ∧
      (drawn .all).map (·.time.epochMillis) = [150000, 210000, 270000, 330000] := by
  intro time ssh routes drawn
  have hwhole : ∀ p ∈ ssh.samples, p.time.IsWholeMillis := by decide
  have hdistinct : (ssh.samples.map Point.time).Nodup := by decide
  have hlone : routes.filter (·.hasSamples) = [ssh] := rfl
  have hfound : findRoute? routes 1 = some (ssh, 1) := rfl
  exact ⟨hlone, hwhole, hdistinct, hfound,
    Chart.build_all_of_lone hlone hwhole hdistinct hfound (time 600001) .standard, by decide⟩

end RouteTraffic
