import RouteTraffic.Proofs.BucketStarts
import RouteTraffic.Proofs.RecorderRuns

/-! # Recorders on a clock that runs forward

A recorder whose samples never go back in time holds its points in strictly ascending order, one
for each bucket (`recordAll_ascending`).

Starts of buckets keep the order of ordinary instants (`bucketStart_mono`).  The runs of samples of
one bucket are therefore runs of ascending keys (`bucketRuns_lt`), and the points are the sums of the
last of these runs (`recordAll_gathered`). -/

namespace RouteTraffic

namespace Recorder

variable {α : Type}

/-! ### Runs of ascending buckets -/

/-- On a clock that runs forward each run of samples has a later bucket than those before it. -/
theorem bucketRuns_lt (bucket : Span) {samples : List (Instant × Traffic α)}
    (hordinary : ∀ s ∈ samples, s.1.isOrdinary)
    (hclock : samples.Pairwise fun s next => s.1 ≤ next.1) :
    (bucketRuns bucket samples).Pairwise fun run later =>
      ∀ s ∈ run, ∀ t ∈ later, bucketOf bucket s < bucketOf bucket t :=
  splitBy_key_lt (bucketOf bucket) <| hclock.imp_of_mem fun hs ht h =>
    bucketStart_mono bucket (hordinary _ hs) (hordinary _ ht) h

theorem flatten_rtake_bucketRuns (bucket : Span) (n : ℕ) (samples : List (Instant × Traffic α)) :
    ((bucketRuns bucket samples).rtake n).flatten <:+ samples := by
  obtain ⟨before, happend⟩ : (bucketRuns bucket samples).rtake n <:+ bucketRuns bucket samples :=
    List.drop_suffix _ _
  have hflatten := congrArg List.flatten happend
  rw [List.flatten_append, bucketRuns, List.flatten_splitBy] at hflatten
  exact ⟨before.flatten, hflatten⟩

theorem flatten_rtake_bucketRuns_of_lt {bucket : Span} {n : ℕ}
    {samples : List (Instant × Traffic α)} (h : ((bucketRuns bucket samples).rtake n).length < n) :
    ((bucketRuns bucket samples).rtake n).flatten = samples := by
  rw [List.rtake, List.length_drop] at h
  rw [List.rtake, Nat.sub_eq_zero_of_le (by omega), List.drop_zero, bucketRuns,
    List.flatten_splitBy]

variable [Channel α]

theorem recordAll_gathered (config : RecorderConfig) (samples : List (Instant × Traffic α)) :
    List.Forall₂ (fun run p => runPoint? config.bucket run = some p)
      ((bucketRuns config.bucket samples).rtake config.maxPoints)
      (recordAll { config } samples).points := by
  have hgather := gather_eq config.bucket samples [] (by simp)
  rw [List.map_nil, List.nil_append] at hgather
  have hruns : List.Forall₂ (fun run p => runPoint? config.bucket run = some p)
      (bucketRuns config.bucket samples) (samples.foldl (gatherNext config.bucket) []) := by
    have heq : List.Forall₂ (· = ·) ((bucketRuns config.bucket samples).map
        (runPoint? config.bucket)) ((samples.foldl (gatherNext config.bucket) []).map some) := by
      rw [hgather, List.forall₂_eq_eq_eq]
    rwa [List.forall₂_map_left_iff, List.forall₂_map_right_iff] at heq
  rw [recordAll_points, keepLast, List.rtake, hruns.length_eq]
  exact List.forall₂_drop _ hruns

theorem times_of_gathered {bucket : Span} {runs : List (List (Instant × Traffic α))}
    {points : List (Point α)}
    (h : List.Forall₂ (fun run p => runPoint? bucket run = some p) runs points) :
    runs.map (fun run => run.head?.map (bucketOf bucket)) = points.map fun p => some p.time := by
  rw [← List.forall₂_eq_eq_eq, List.forall₂_map_left_iff, List.forall₂_map_right_iff]
  refine h.imp fun run p hp => ?_
  cases run with
  | nil => cases hp
  | cons s rest =>
      cases hp
      rfl

theorem ascending_of_gathered {bucket : Span} {runs : List (List (Instant × Traffic α))}
    {points : List (Point α)}
    (h : List.Forall₂ (fun run p => runPoint? bucket run = some p) runs points)
    (hruns : runs.Pairwise fun run later =>
      ∀ s ∈ run, ∀ t ∈ later, bucketOf bucket s < bucketOf bucket t) :
    points.Pairwise fun p q => p.time < q.time := by
  have htimes : (points.map fun p => some p.time).Pairwise fun a b =>
      ∀ x ∈ a, ∀ y ∈ b, x < y := by
    rw [← times_of_gathered h, List.pairwise_map]
    refine hruns.imp fun {run later} hlt x hx y hy => ?_
    obtain ⟨s, hs, rfl⟩ := Option.mem_map.mp hx
    obtain ⟨t, ht, rfl⟩ := Option.mem_map.mp hy
    exact hlt s (List.mem_of_head? hs) t (List.mem_of_head? ht)
  rw [List.pairwise_map] at htimes
  exact htimes.imp fun hlt => hlt _ rfl _ rfl

/-! ### The points of a recorder -/

/-- The point holds the sum of a run of samples, from the first of them on.  It stands at the start
of the bucket of each of them, where this start is in the calendar, and otherwise at the sample
itself. -/
structure Gathers (width : ℤ) (p : Point α) (run : List (Instant × Traffic α)) : Prop where
  value : ∃ s rest, run = s :: rest ∧ p.value = rest.foldl (fun sum next => sum + next.2) s.2
  unbucketed : width < 1 → ∀ s ∈ run, p.time = s.1
  bucketed : 1 ≤ width → ∀ s ∈ run, ∃ ms, InBucket width ms s.1 ∧
    (∀ start, Instant.ofEpochMillis? ms = some start → p.time = start) ∧
    (Instant.ofEpochMillis? ms = none → p.time = s.1)

theorem gathers_of_runPoint? {bucket : Span} {samples run : List (Instant × Traffic α)}
    (hrun : run ∈ bucketRuns bucket samples) {p : Point α} (h : runPoint? bucket run = some p) :
    Gathers bucket.wholeMillis p run := by
  cases run with
  | nil => cases h
  | cons s rest =>
      cases h
      have htime : ∀ t ∈ s :: rest, bucketOf bucket s = bucketStart bucket t.1 := fun t ht =>
        key_eq_of_mem_splitBy (bucketOf bucket) hrun List.mem_cons_self ht
      refine ⟨⟨s, rest, rfl, rfl⟩, fun hnone t ht => ?_, fun hwidth t ht => ?_⟩
      · exact (htime t ht).trans (bucketStart_of_nonpos (Int.lt_add_one_iff.mp hnone) t.1)
      · have hbucket := InBucket.of_remainder hwidth t.1
        refine ⟨_, hbucket, fun start hstart => ?_, fun hstart => ?_⟩
        · exact (htime t ht).trans (by rw [bucketStart_eq hbucket, hstart, Option.getD_some])
        · exact (htime t ht).trans (by rw [bucketStart_eq hbucket, hstart, Option.getD_none])

/-- **A clock that runs forward gives points that do.**  If no sample is earlier than the one before
it, the points of a recorder are strictly ascending in time, whatever its bucket and its limit.
Each point gathers a run of the latest samples, all samples as long as the limit is not reached,
at the start of their bucket; and samples of different points share no bucket that starts in the
calendar. -/
theorem recordAll_ascending (config : RecorderConfig) (samples : List (Instant × Traffic α))
    (hordinary : ∀ s ∈ samples, s.1.isOrdinary)
    (hclock : samples.Pairwise fun s next => s.1 ≤ next.1) :
    let points := (recordAll { config } samples).snapshot.points
    let width := config.bucket.wholeMillis
    points.Pairwise (fun p q => p.time < q.time) ∧
      ∃ runs : List (List (Instant × Traffic α)), runs.flatten <:+ samples ∧
        (points.length < config.maxPoints → runs.flatten = samples) ∧
        List.Forall₂ (Gathers width) points runs ∧
        runs.Pairwise fun run later => ∀ s ∈ run, ∀ t ∈ later, ∀ ms,
          InBucket width ms s.1 → InBucket width ms t.1 → Instant.ofEpochMillis? ms = none := by
  intro points width
  have hgathered := recordAll_gathered config samples
  have hsuffix : (bucketRuns config.bucket samples).rtake config.maxPoints <:+
      bucketRuns config.bucket samples := List.drop_suffix _ _
  have hascending := (bucketRuns_lt config.bucket hordinary hclock).sublist hsuffix.sublist
  refine ⟨ascending_of_gathered hgathered hascending,
    (bucketRuns config.bucket samples).rtake config.maxPoints, flatten_rtake_bucketRuns _ _ _,
    fun hshort => flatten_rtake_bucketRuns_of_lt (hgathered.length_eq.trans_lt hshort), ?_, ?_⟩
  · have hmem := (List.forall₂_and_left (p := (· ∈ bucketRuns config.bucket samples)) _ _).mpr
      ⟨fun run hrun => hsuffix.subset hrun, hgathered⟩
    exact (hmem.imp fun run p h => gathers_of_runPoint? h.1 h.2).flip
  · refine hascending.imp fun {run later} hlt s hs t ht ms hms hmt => ?_
    cases hstart : Instant.ofEpochMillis? ms with
    | none => rfl
    | some start =>
        have hne := hlt s hs t ht
        rw [bucketOf, bucketOf, bucketStart_eq hms, bucketStart_eq hmt, hstart] at hne
        exact absurd hne (lt_irrefl start)

/-- Buckets of thirteen seconds from the start of the calendar on, which is no multiple of them: the
first two samples lie in a bucket that starts before the calendar, and have a point each, of which
the limit of three keeps one.  The next two lie in the last bucket before the epoch. -/
theorem recordAll_ascending_first_bucket :
    let config : RecorderConfig := ⟨.ofMillis 13000, 3⟩
    let samples : List (Instant × Traffic Float) :=
      [(.first, ⟨1.0, 0.0⟩), (⟨Calendar.firstSecond, 1, by decide, by decide⟩, ⟨2.0, 0.0⟩),
        (⟨-2, 500000000, by decide, by decide⟩, ⟨3.0, 0.0⟩),
        (⟨-1, 999999999, by decide, by decide⟩, ⟨0.0, 4.0⟩),
        (⟨2, 0, by decide, by decide⟩, ⟨5.0, 0.0⟩)]
    let points := (recordAll { config } samples).snapshot.points
    (∀ s ∈ samples, s.1.isOrdinary) ∧ samples.Pairwise (fun s next => s.1 ≤ next.1) ∧
      points.map (fun p => (p.time.seconds, p.time.nanos, p.value)) =
        [(Calendar.firstSecond, 1, ⟨2.0, 0.0⟩), (-13, 0, ⟨3.0, 4.0⟩), (0, 0, ⟨5.0, 0.0⟩)] ∧
      points.Pairwise (fun p q => p.time < q.time) ∧
      ∃ runs : List (List (Instant × Traffic Float)), runs.flatten <:+ samples ∧
        (points.length < 3 → runs.flatten = samples) ∧ List.Forall₂ (Gathers 13000) points runs ∧
        runs.Pairwise fun run later => ∀ s ∈ run, ∀ t ∈ later, ∀ ms,
          InBucket 13000 ms s.1 → InBucket 13000 ms t.1 → Instant.ofEpochMillis? ms = none := by
  intro config samples points
  have hordinary : ∀ s ∈ samples, s.1.isOrdinary := by decide
  have hclock : samples.Pairwise fun s next => s.1 ≤ next.1 := by decide
  exact ⟨hordinary, hclock, by decide +kernel, recordAll_ascending config samples hordinary hclock⟩

end Recorder

end RouteTraffic
