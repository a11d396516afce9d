import RouteTraffic.Proofs.Runs
import RouteTraffic.Proofs.Sorting
import RouteTraffic.Series.Summary

/-! # Points merged by instant

Points that stand at the same instant are added in the order in which they are met
(`mergeByTime`).  The result is strictly ascending (`mergeByTime_ascending`) and has one point at
each instant that is met, the sum of the values there (`filter_mergeByTime`).  To merge by the
millisecond is to do so with instants cut to it (`mem_times_mergeByMillis`,
`value_of_mem_mergeByMillis`).

Merging changes nothing exactly where the points ascend already (`mergeByTime_eq_self_iff`), and by
the millisecond where also no instant is cut (`mergeByMillis_eq_self_iff`).

Sorting brings the points of one instant together without changing their order, so that they can
also be added run by run: both ways give the same points (`mergeByTime_eq_runs`).  Where no two
points share an instant, merging is sorting (`mergeByTime_of_nodup`). -/

namespace RouteTraffic

variable {α : Type} [Channel α]

/-- Each point is earlier than those after it. -/
def Ascending (points : List (Point α)) : Prop := points.Pairwise fun p q => p.time < q.time

/-- Points of one instant as one point: the values from the first on. -/
def sumOf? : List (Point α) → Option (Point α)
  | [] => none
  | p :: ps => some ⟨p.time, ps.foldl (fun sum q => sum + q.value) p.value⟩

/-- Merges points by their instant. -/
def mergeByTime (points : List (Point α)) : List (Point α) :=
  points.foldl (fun merged p => addAt p.time p.value merged) []

/-- The longest runs of neighbours that stand at the same instant. -/
def instantRuns (points : List (Point α)) : List (List (Point α)) :=
  points.splitBy fun p q => p.time = q.time

omit [Channel α] in
theorem Ascending.ordered {points : List (Point α)} (h : Ascending points) : Ordered points :=
  h.imp fun hlt => hlt.le

/-- To merge by the millisecond is to cut to the millisecond and merge. -/
theorem mergeByMillis_eq (points : List (Point α)) :
    mergeByMillis points =
      mergeByTime (points.map fun p => ⟨p.time.truncateToMillis, p.value⟩) := by
  unfold mergeByMillis mergeByTime
  rw [List.foldl_map]

theorem mergeByMillis_of_cut {points : List (Point α)}
    (h : ∀ p ∈ points, p.time.truncateToMillis = p.time) :
    mergeByMillis points = mergeByTime points := by
  have hcut : ∀ p ∈ points, (⟨p.time.truncateToMillis, p.value⟩ : Point α) = p := by
    intro p hp
    rw [h p hp]
  rw [mergeByMillis_eq, List.map_congr_left hcut, List.map_id']

theorem mergeByMillis_of_wholeMillis {points : List (Point α)}
    (h : ∀ p ∈ points, p.time.IsWholeMillis) : mergeByMillis points = mergeByTime points :=
  mergeByMillis_of_cut fun p hp => Instant.truncateToMillis_of_wholeMillis (h p hp)

theorem Series.summary_points (series : List (Series α)) :
    (summary series).points = mergeByMillis (series.flatMap (·.points)) := by
  show mergeByMillis ((series.filter fun s => !s.isEmpty).flatMap (·.points)) = _
  congr 1
  induction series with
  | nil => rfl
  | cons s rest ih =>
      cases hs : s.points with
      | nil =>
          rw [List.filter_cons_of_neg (by simp [isEmpty, hs]), List.flatMap_cons, hs, ih]
          rfl
      | cons p ps =>
          rw [List.filter_cons_of_pos (by simp [isEmpty, hs]), List.flatMap_cons,
            List.flatMap_cons, ih]

/-! ### Adding a value -/

theorem mem_addAt {t : Instant} {v : Traffic α} {q : Point α} : ∀ {points : List (Point α)},
    q ∈ addAt t v points → q.time = t ∨ q ∈ points
  | [], h => Or.inl (congrArg Point.time (List.mem_singleton.mp h))
  | p :: ps, h => by
      rw [addAt] at h
      split_ifs at h
      · rcases List.mem_cons.mp h with rfl | h
        · exact Or.inl rfl
        · exact Or.inr (List.mem_cons_of_mem _ h)
      · rcases List.mem_cons.mp h with rfl | h
        · exact Or.inl rfl
        · exact Or.inr h
      · rcases List.mem_cons.mp h with rfl | h
        · exact Or.inr List.mem_cons_self
        · exact (mem_addAt h).imp_right (List.mem_cons_of_mem _)

theorem addAt_ascending (t : Instant) (v : Traffic α) : ∀ {points : List (Point α)},
    Ascending points → Ascending (addAt t v points)
  | [], _ => List.pairwise_singleton _ _
  | p :: ps, h => by
      obtain ⟨hp, hps⟩ := List.pairwise_cons.mp h
      rw [addAt]
      split_ifs with heq hle
      · exact List.pairwise_cons.mpr ⟨fun q hq => heq ▸ hp q hq, hps⟩
      · have hlt : t < p.time := lt_of_le_of_ne hle (Ne.symm heq)
        refine List.pairwise_cons.mpr ⟨List.forall_mem_cons.mpr ⟨hlt, fun q hq => ?_⟩, h⟩
        exact hlt.trans (hp q hq)
      · refine List.pairwise_cons.mpr ⟨fun q hq => ?_, addAt_ascending t v hps⟩
        rcases mem_addAt hq with rfl | hq
        · exact not_le.mp hle
        · exact hp q hq

theorem filter_addAt_of_ne {t u : Instant} (h : t ≠ u) (v : Traffic α) :
    ∀ points : List (Point α), (addAt t v points).filter (fun q => q.time = u) =
      points.filter fun q => q.time = u
  | [] => by simp [addAt, h]
  | p :: ps => by
      have ih := filter_addAt_of_ne h v ps
      rw [addAt]
      split_ifs with heq hle
      · simp [h, heq]
      · simp [h]
      · rw [List.filter_cons, List.filter_cons, ih]

theorem filter_addAt (t : Instant) (v : Traffic α) : ∀ {points : List (Point α)},
    Ascending points → (addAt t v points).filter (fun q => q.time = t) =
      (sumOf? (points.filter (fun q => q.time = t) ++ [⟨t, v⟩])).toList
  | [], _ => by simp [addAt, sumOf?]
  | p :: ps, h => by
      obtain ⟨hp, hps⟩ := List.pairwise_cons.mp h
      rw [addAt]
      split_ifs with heq hle
      · have hnone : ps.filter (fun q => q.time = t) = [] := by
          simpa using fun q hq => (heq ▸ hp q hq).ne'
        simp [heq, hnone, sumOf?]
      · have hlt : t < p.time := lt_of_le_of_ne hle (Ne.symm heq)
        have hnone : ps.filter (fun q => q.time = t) = [] := by
          simpa using fun q hq => (hlt.trans (hp q hq)).ne'
        simp [heq, hnone, sumOf?]
      · simpa [heq] using filter_addAt t v hps

/-! ### Merging -/

theorem mergeByTime_concat (points : List (Point α)) (p : Point α) :
    mergeByTime (points ++ [p]) = addAt p.time p.value (mergeByTime points) := by
  unfold mergeByTime
  rw [List.foldl_append]
  rfl

theorem mergeByTime_ascending (points : List (Point α)) : Ascending (mergeByTime points) := by
  induction points using List.reverseRecOn with
  | nil => exact List.Pairwise.nil
  | append_singleton points p ih =>
      rw [mergeByTime_concat]
      exact addAt_ascending p.time p.value ih

theorem sumOf?_sumOf?_concat (points : List (Point α)) (p : Point α) :
    sumOf? ((sumOf? points).toList ++ [p]) = sumOf? (points ++ [p]) := by
  cases points with
  | nil => rfl
  | cons q qs => simp [sumOf?]

/-- What stands at an instant is the sum of the points there. -/
theorem filter_mergeByTime (t : Instant) (points : List (Point α)) :
    (mergeByTime points).filter (fun q => q.time = t) =
      (sumOf? (points.filter fun q => q.time = t)).toList := by
  induction points using List.reverseRecOn with
  | nil => rfl
  | append_singleton points p ih =>
      rw [mergeByTime_concat, List.filter_append]
      by_cases h : p.time = t
      · subst h
        rw [filter_addAt _ _ (mergeByTime_ascending points), ih, sumOf?_sumOf?_concat,
          List.filter_singleton]
        simp
      · rw [filter_addAt_of_ne h, ih]
        simp [h]

theorem sumOf?_eq_none_iff {points : List (Point α)} : sumOf? points = none ↔ points = [] := by
  cases points <;> simp [sumOf?]

omit [Channel α] in
theorem mem_times_iff {t : Instant} {points : List (Point α)} :
    t ∈ points.map Point.time ↔ points.filter (fun p => p.time = t) ≠ [] := by
  simp

theorem mem_times_mergeByTime {t : Instant} {points : List (Point α)} :
    t ∈ (mergeByTime points).map Point.time ↔ t ∈ points.map Point.time := by
  rw [mem_times_iff, mem_times_iff, filter_mergeByTime, Ne, Option.toList_eq_nil_iff,
    sumOf?_eq_none_iff]

theorem exists_of_mem_mergeByTime {q : Point α} {points : List (Point α)}
    (h : q ∈ mergeByTime points) : ∃ p ∈ points, p.time = q.time :=
  List.mem_map.mp (mem_times_mergeByTime.mp (List.mem_map_of_mem h))

theorem mergeByTime_of_nodup {points : List (Point α)} (h : (points.map Point.time).Nodup) :
    mergeByTime points = sortByTime points := by
  refine (mergeByTime_ascending points).ordered.ext (sortByTime_ordered points) fun t => ?_
  rw [filter_mergeByTime, filter_sortByTime]
  rcases filter_of_nodup h t with hnone | ⟨p, hone⟩
  · rw [hnone]
    rfl
  · rw [hone]
    rfl

omit [Channel α] in
theorem Ascending.nodup {points : List (Point α)} (h : Ascending points) :
    (points.map Point.time).Nodup :=
  List.pairwise_map.mpr (h.imp fun hlt => hlt.ne)

/-- Merging shows in every list but those that ascend already. -/
theorem mergeByTime_eq_self_iff {points : List (Point α)} :
    mergeByTime points = points ↔ Ascending points := by
  constructor
  · intro h
    exact h ▸ mergeByTime_ascending points
  · intro h
    rw [mergeByTime_of_nodup h.nodup, sortByTime_of_ordered h.ordered]

/-! ### Merging by the millisecond -/

theorem mem_times_mergeByMillis {t : Instant} {points : List (Point α)} :
    t ∈ (mergeByMillis points).map Point.time ↔ ∃ p ∈ points, p.time.truncateToMillis = t := by
  rw [mergeByMillis_eq, mem_times_mergeByTime, List.map_map, List.mem_map]
  rfl

theorem value_of_mem_mergeByMillis {q : Point α} {points : List (Point α)}
    (hq : q ∈ mergeByMillis points) : ∃ first rest,
      (points.filter fun p => p.time.truncateToMillis = q.time).map Point.value = first :: rest ∧
        q.value = rest.foldl (· + ·) first := by
  have hsum : q ∈ (mergeByMillis points).filter fun p => p.time = q.time := by
    simpa using hq
  rw [mergeByMillis_eq, filter_mergeByTime, List.filter_map] at hsum
  unfold Function.comp at hsum
  cases hmet : points.filter fun p => p.time.truncateToMillis = q.time with
  | nil => simp [hmet, sumOf?] at hsum
  | cons p ps =>
      rw [hmet, List.map_cons, sumOf?, Option.toList_some, List.mem_singleton] at hsum
      refine ⟨p.value, ps.map Point.value, rfl, ?_⟩
      rw [hsum, List.foldl_map, List.foldl_map]

theorem mergeByMillis_eq_self_iff {points : List (Point α)} :
    mergeByMillis points = points ↔
      Ascending points ∧ ∀ p ∈ points, p.time.truncateToMillis = p.time := by
  constructor
  · intro h
    refine ⟨?_, fun p hp => ?_⟩
    · rw [← h, mergeByMillis_eq]
      exact mergeByTime_ascending _
    · have hmet : p.time ∈ (mergeByMillis points).map Point.time :=
        List.mem_map_of_mem (h.symm ▸ hp)
      obtain ⟨q, -, hq⟩ := mem_times_mergeByMillis.mp hmet
      rw [← hq, Instant.truncateToMillis_truncateToMillis]
  · rintro ⟨hascending, hcut⟩
    rw [mergeByMillis_of_cut hcut]
    exact mergeByTime_eq_self_iff.mpr hascending

/-! ### Runs of equal instants -/

omit [Channel α] in
theorem instantRuns_cons (p : Point α) (points : List (Point α)) :
    instantRuns (p :: points) = (p :: points.takeWhile fun q => q.time = p.time) ::
      instantRuns (points.dropWhile fun q => q.time = p.time) :=
  splitBy_cons_key Point.time p points

omit [Channel α] in
theorem Ordered.lt_of_mem_dropWhile {p q : Point α} {points : List (Point α)}
    (h : Ordered (p :: points)) (hq : q ∈ points.dropWhile fun q => q.time = p.time) :
    p.time < q.time :=
  key_lt_of_mem_dropWhile Point.time h hq

/-- In the order of time, the first run is merged on its own. -/
theorem mergeByTime_cons {p : Point α} {points : List (Point α)} (h : Ordered (p :: points)) :
    mergeByTime (p :: points) =
      ⟨p.time, (points.takeWhile fun q => q.time = p.time).foldl (fun sum q => sum + q.value)
        p.value⟩ :: mergeByTime (points.dropWhile fun q => q.time = p.time) := by
  set run := points.takeWhile fun q => q.time = p.time
  set past := points.dropWhile fun q => q.time = p.time
  have hsplit : run ++ past = points := List.takeWhile_append_dropWhile
  have hrunTime : ∀ q ∈ run, q.time = p.time := fun q hq => by
    simpa using List.mem_takeWhile_imp hq
  have hpastTime : ∀ q ∈ past, p.time < q.time := fun q hq => h.lt_of_mem_dropWhile hq
  refine (mergeByTime_ascending _).ordered.ext ?_ fun t => ?_
  · refine List.pairwise_cons.mpr ⟨fun q hq => ?_, (mergeByTime_ascending past).ordered⟩
    obtain ⟨x, hx, hxq⟩ := exists_of_mem_mergeByTime hq
    exact (hpastTime x hx).le.trans_eq hxq
  · -- at the instant of the run nothing comes after it, and at others the run has nothing
    rw [filter_mergeByTime, ← hsplit, ← List.cons_append, List.filter_append]
    by_cases ht : p.time = t
    · subst ht
      have hrunAll : (p :: run).filter (fun q => q.time = p.time) = p :: run := by
        simpa using hrunTime
      have hpastNone : past.filter (fun q => q.time = p.time) = [] := by
        simpa using fun q hq => (hpastTime q hq).ne'
      rw [hrunAll, hpastNone, List.filter_cons_of_pos (by simp), filter_mergeByTime, hpastNone]
      simp [sumOf?]
    · have hrunNone : (p :: run).filter (fun q => q.time = t) = [] := by
        simpa [ht] using fun q hq => hrunTime q hq ▸ ht
      rw [hrunNone, List.filter_cons_of_neg (by simpa using ht), filter_mergeByTime]
      rfl

theorem mergeByTime_eq_runs : ∀ {points : List (Point α)}, Ordered points →
    (mergeByTime points).map some = (instantRuns points).map sumOf?
  | [], _ => rfl
  | p :: points, h => by
      have hpast : Ordered (points.dropWhile fun q => q.time = p.time) :=
        (List.pairwise_cons.mp h).2.sublist (List.dropWhile_sublist _)
      have hshort := (List.dropWhile_sublist (l := points) fun q => q.time = p.time).length_le
      rw [mergeByTime_cons h, instantRuns_cons, List.map_cons, List.map_cons,
        mergeByTime_eq_runs hpast]
      rfl
  termination_by points => points.length
  decreasing_by
    simp only [List.length_cons]
    omega

theorem mergeByTime_sortByTime (points : List (Point α)) :
    mergeByTime (sortByTime points) = mergeByTime points :=
  (mergeByTime_ascending _).ordered.ext (mergeByTime_ascending _).ordered fun t => by
    rw [filter_mergeByTime, filter_mergeByTime, filter_sortByTime]

end RouteTraffic
