import RouteTraffic.Proofs.MergedPoints
import RouteTraffic.Proofs.RegistryOwnership
import RouteTraffic.Proofs.SumsOfDoubles

/-! # Two views of a service

A service is shown as all its samples one after another (`Registry.combined`), and as one sample
for each instant (`summarize`).  The two views agree: the samples of the first, summed where they
stand at the same instant, are those of the second, and the totals are the same
(`Registry.combined_agrees`).

The first view sorts the samples route by route and the second merges them by instant, cut to the
millisecond; in both, samples of one instant are met in the order of the routes' keys.  Where
buckets begin in the calendar, recorders hold instants of whole milliseconds, so that nothing is cut
(`Registry.wholeMillis_of_mem_collect`).  The second view leaves out routes without points; their
total is zero, and this makes no difference to a sum (`Series.summary_total`). -/

namespace RouteTraffic

/-- Series that are silent and have a total of zero have no part in the total of a summary. -/
theorem Series.summary_total {series : List (Series Float)}
    (h : ∀ s ∈ series, s.points = [] → s.total = 0) :
    (summary series).total = Traffic.sum (series.map (·.total)) := by
  show Traffic.sum ((series.filter fun s => !s.isEmpty).map (·.total)) = _
  induction series using List.reverseRecOn with
  | nil => rfl
  | append_singleton series s ih =>
      obtain ⟨hseries, hs⟩ := List.forall_mem_append.mp h
      rw [List.filter_append, List.map_append, List.map_append, List.map_singleton,
        Traffic.sum_concat]
      cases hpoints : s.points with
      | nil =>
          have hzero := hs s List.mem_cons_self hpoints
          rw [List.filter_cons_of_neg (by simp [isEmpty, hpoints]), hzero, Traffic.sum_add_zero]
          simpa using ih hseries
      | cons p ps =>
          rw [List.filter_cons_of_pos (by simp [isEmpty, hpoints]), List.filter_nil,
            List.map_singleton, Traffic.sum_concat, ih hseries]

/-! ### Buckets in the calendar -/

/-- The bucket of an instant begins in the calendar. -/
def BeginsInCalendar (bucket : Span) (t : Instant) : Prop :=
  (Instant.ofEpochMillis? (t.epochMillis - t.epochMillis % bucket.wholeMillis)).isSome

instance (bucket : Span) (t : Instant) : Decidable (BeginsInCalendar bucket t) :=
  inferInstanceAs (Decidable (_ = true))

theorem bucketStart_wholeMillis {bucket : Span} (hpos : 0 < bucket.wholeMillis) {t : Instant}
    (h : BeginsInCalendar bucket t) : (bucketStart bucket t).IsWholeMillis := by
  obtain ⟨start, hstart⟩ := Option.isSome_iff_exists.mp h
  unfold bucketStart
  rw [if_neg (not_le.mpr hpos), hstart, Option.getD_some]
  exact Instant.ofEpochMillis?_wholeMillis hstart

namespace Registry

variable {config : RecorderConfig} {history : List Op}

/-! ### What is collected -/

theorem exists_of_mem_collect {s : Session} (h : Owned config history s)
    {entry : UInt32 × Series Float} (hentry : entry ∈ s.registry.collect) :
    ∃ g, entry.2 = (gathered config history g).snapshot := by
  obtain ⟨⟨key, n⟩, hn, rfl⟩ := List.mem_map.mp hentry
  obtain ⟨hkey, rfl⟩ := (h.registered key n).mp hn
  refine ⟨current key history, ?_⟩
  show (s.registry.recorder _).snapshot = _
  rw [h.recorder ((registered_iff key history).mp hkey)]

theorem total_of_mem_collect {s : Session} (h : Owned config history s)
    {entry : UInt32 × Series Float} (hentry : entry ∈ s.registry.collect)
    (hpoints : entry.2.points = []) : entry.2.total = 0 := by
  obtain ⟨g, hg⟩ := exists_of_mem_collect h hentry
  rw [hg] at hpoints ⊢
  have hnone : (Recorder.recordAll { config } (samples g history)).points = [] := hpoints
  show (Recorder.recordAll { config } (samples g history)).total = 0
  rw [Recorder.recordAll_total, hnone]
  rfl

theorem wholeMillis_of_mem_collect {s : Session} (h : Owned config history s)
    (hbucket : 0 < config.bucket.wholeMillis)
    (hcalendar : ∀ op ∈ history, ∀ x ∈ op.sample?, BeginsInCalendar config.bucket x.2.1)
    {entry : UInt32 × Series Float} (hentry : entry ∈ s.registry.collect) :
    ∀ p ∈ entry.2.points, p.time.IsWholeMillis := by
  intro p hp
  obtain ⟨g, hg⟩ := exists_of_mem_collect h hentry
  rw [hg] at hp
  obtain ⟨x, hx, htime⟩ := Recorder.time_of_mem_recordAll hp
  obtain ⟨op, hop, j, hsample⟩ := exists_of_mem_samples hx
  rw [htime]
  exact bucketStart_wholeMillis hbucket (hcalendar op hop (j, x) hsample)

theorem summarize_routes (r : Registry) :
    summarize r.routes = Series.summary (r.collect.map (·.2)) := by
  have hstats : r.routes.filterMap (·.stats) = r.collect.map (·.2) := by
    rw [routes, List.filterMap_map, ← List.filterMap_eq_map]
    rfl
  rw [summarize, hstats]

/-! ### Agreement -/

/-- **The two views of a service agree.**  After every history whose buckets begin in the calendar,
all samples one after another are those that are collected, in ascending order of keys, sorted by
time: all of them, in the order of time, and those of one instant in the order in which they are
collected.  Summed run by run, each from its first sample on, they are the points of the summary.
The totals of the two views are the same. -/
theorem combined_agrees (config : RecorderConfig) (history : List Op)
    (hbucket : 0 < config.bucket.wholeMillis)
    (hcalendar : ∀ op ∈ history, ∀ x ∈ op.sample?, BeginsInCalendar config.bucket x.2.1) :
    let r := (Session.after config history).registry
    let collected := r.collect.flatMap fun entry => entry.2.points
    (r.collect.Pairwise fun a b => a.1 < b.1) ∧
      r.combined.points = sortByTime collected ∧
      (Ordered r.combined.points ∧ r.combined.points.Perm collected ∧
        ∀ t, r.combined.points.filter (fun p => p.time = t) =
          collected.filter fun p => p.time = t) ∧
      (summarize r.routes).points.map some = (instantRuns r.combined.points).map sumOf? ∧
      (summarize r.routes).total = r.combined.total := by
  intro r collected
  have howned := owned_after config history
  have hcombined : r.combined.points = sortByTime collected := by
    unfold combined
    rw [Series.foldl_concat_points, List.flatMap_map]
  have hwhole : ∀ p ∈ collected, p.time.IsWholeMillis := by
    intro p hp
    obtain ⟨entry, hentry, hp⟩ := List.mem_flatMap.mp hp
    exact wholeMillis_of_mem_collect howned hbucket hcalendar hentry p hp
  have hsilent : ∀ s ∈ r.collect.map (·.2), s.points = [] → s.total = 0 := by
    intro s hs
    obtain ⟨entry, hentry, rfl⟩ := List.mem_map.mp hs
    exact total_of_mem_collect howned hentry
  refine ⟨List.pairwise_map.mpr howned.ascending, hcombined, ?_, ?_, ?_⟩
  · rw [hcombined]
    exact ⟨sortByTime_ordered collected, sortByTime_perm collected,
      fun t => filter_sortByTime t collected⟩
  · -- on sorted points the merge goes run by run, and sorting makes no difference to it
    rw [hcombined, ← mergeByTime_eq_runs (sortByTime_ordered collected), mergeByTime_sortByTime,
      summarize_routes, Series.summary_points, List.flatMap_map,
      mergeByMillis_of_wholeMillis hwhole]
  · unfold combined
    rw [summarize_routes, Series.summary_total hsilent, Series.foldl_concat_total]

/-- Two routes share instants, the one that is registered first has the greater key and goes back
in time, and a third is silent. -/
theorem combined_agrees_backwards :
    let config : RecorderConfig := ⟨.ofSeconds 1, 8⟩
    let sample (handle : ℕ) (ms : ℤ) (bytes : Float) : Op :=
      .record handle ((Instant.ofEpochMillis? ms).getD .first) (.ofSent bytes)
    let history : List Op :=
      [sample 1 2999 32.0, sample 0 2000 16.0, sample 0 1001 8.0, sample 1 1500 4.0,
        sample 0 2999 2.0, sample 0 2000 1.0, .register 9, .register 0, .register 7]
    let r := (Session.after config history).registry
    let collected := r.collect.flatMap fun entry => entry.2.points
    let shown (points : List (Point Float)) :=
      points.map fun p => (p.time.epochMillis, p.value.sent)
    0 < config.bucket.wholeMillis ∧
      (∀ op ∈ history, ∀ x ∈ op.sample?, BeginsInCalendar config.bucket x.2.1) ∧
      ((r.collect.Pairwise fun a b => a.1 < b.1) ∧
        r.combined.points = sortByTime collected ∧
        (Ordered r.combined.points ∧ r.combined.points.Perm collected ∧
          ∀ t, r.combined.points.filter (fun p => p.time = t) =
            collected.filter fun p => p.time = t) ∧
        (summarize r.routes).points.map some = (instantRuns r.combined.points).map sumOf? ∧
        (summarize r.routes).total = r.combined.total) ∧
      shown r.combined.points =
        [(1000, 4.0), (1000, 8.0), (2000, 32.0), (2000, 3.0), (2000, 16.0)] ∧
      shown (summarize r.routes).points = [(1000, 12.0), (2000, 51.0)] := by
  intro config sample history r collected shown
  have hbucket : 0 < config.bucket.wholeMillis := by decide
  have hcalendar : ∀ op ∈ history, ∀ x ∈ op.sample?, BeginsInCalendar config.bucket x.2.1 := by
    decide
  exact ⟨hbucket, hcalendar, combined_agrees config history hbucket hcalendar, by decide, by decide⟩

end Registry

end RouteTraffic
