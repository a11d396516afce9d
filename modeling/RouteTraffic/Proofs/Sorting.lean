import RouteTraffic.Proofs.Timeline
import RouteTraffic.Series
import Mathlib.Data.List.Induction
import Mathlib.Data.List.Sort

/-! # Points sorted by time

Inserting each point before the first that is not earlier is the library's insertion sort for
the order of instants (`sortByTime_eq`), so the result is in that order (`sortByTime_ordered`)
and holds the points that were given (`sortByTime_perm`), those of one instant as they stood
(`filter_sortByTime`); the order of time and what stands at each instant leave no choice
(`Ordered.ext`).  So lists are sorted alike exactly if they have the same points, in the same order
at each instant (`sortByTime_eq_iff`), and any other stable sort gives the same result
(`sortByTime_eq_mergeSort`).

Points that are not earlier than others are sorted after them (`sortByTime_append`), and what is
sorted may be cut at any instant (`sortByTime_split`) or sorted again with others, so that series
may be put together in any grouping (`Series.concat_points_assoc`). -/

namespace RouteTraffic

variable {α : Type}

/-- The first point is not later than the second. -/
def Point.NotLater (p q : Point α) : Prop := p.time ≤ q.time

instance : DecidableRel (Point.NotLater (α := α)) :=
  fun p q => inferInstanceAs (Decidable (p.time ≤ q.time))

instance : Std.Total (Point.NotLater (α := α)) := ⟨fun p q => Instant.le_total p.time q.time⟩

instance : IsTrans (Point α) Point.NotLater := ⟨fun _ _ _ => Instant.le_trans⟩

/-- The points stand in the order of time; points of one instant may follow each other. -/
def Ordered (points : List (Point α)) : Prop := points.Pairwise Point.NotLater

theorem insertByTime_eq (p : Point α) :
    ∀ points : List (Point α), insertByTime p points = points.orderedInsert Point.NotLater p
  | [] => rfl
  | q :: qs => by
      rw [insertByTime, List.orderedInsert_cons, insertByTime_eq p qs]
      rfl

theorem sortByTime_eq (points : List (Point α)) :
    sortByTime points = points.insertionSort Point.NotLater := by
  unfold sortByTime List.insertionSort
  congr 1
  funext p qs
  exact insertByTime_eq p qs

theorem sortByTime_ordered (points : List (Point α)) : Ordered (sortByTime points) := by
  rw [sortByTime_eq]
  exact List.pairwise_insertionSort _ _

theorem sortByTime_perm (points : List (Point α)) : (sortByTime points).Perm points := by
  rw [sortByTime_eq]
  exact List.perm_insertionSort _ _

theorem mem_sortByTime {p : Point α} {points : List (Point α)} :
    p ∈ sortByTime points ↔ p ∈ points := by
  rw [sortByTime_eq, List.mem_insertionSort]

theorem sortByTime_of_ordered {points : List (Point α)} (h : Ordered points) :
    sortByTime points = points := by
  rw [sortByTime_eq]
  exact List.Pairwise.insertionSort_eq h

/-! ### Sorting in parts -/

theorem sortByTime_cons (p : Point α) (points : List (Point α)) :
    sortByTime (p :: points) = insertByTime p (sortByTime points) := rfl

theorem insertByTime_append {p : Point α} {later : List (Point α)}
    (h : ∀ q ∈ later, p.time ≤ q.time) :
    ∀ points : List (Point α), insertByTime p (points ++ later) = insertByTime p points ++ later
  | [] => by
      cases later with
      | nil => rfl
      | cons q qs => exact if_pos (h q List.mem_cons_self)
  | q :: qs => by
      simp only [List.cons_append, insertByTime, insertByTime_append h qs]
      split_ifs <;> rfl

theorem insertByTime_append_of_lt {p : Point α} (points : List (Point α)) :
    ∀ {earlier : List (Point α)}, (∀ q ∈ earlier, q.time < p.time) →
      insertByTime p (earlier ++ points) = earlier ++ insertByTime p points
  | [], _ => rfl
  | q :: qs, h => by
      obtain ⟨hq, hqs⟩ := List.forall_mem_cons.mp h
      rw [List.cons_append, insertByTime, if_neg (not_le.mpr hq),
        insertByTime_append_of_lt points hqs, List.cons_append]

/-- Points that are not earlier than others come after them, also at the same instant. -/
theorem sortByTime_append {points later : List (Point α)}
    (h : ∀ p ∈ points, ∀ q ∈ later, p.time ≤ q.time) :
    sortByTime (points ++ later) = sortByTime points ++ sortByTime later := by
  induction points with
  | nil => rfl
  | cons p ps ih =>
      obtain ⟨hp, hps⟩ := List.forall_mem_cons.mp h
      rw [List.cons_append, sortByTime_cons, ih hps, sortByTime_cons]
      exact insertByTime_append (fun q hq => hp q (mem_sortByTime.mp hq)) _

/-- What comes before an instant and what does not are sorted on their own. -/
theorem sortByTime_split (t : Instant) (points : List (Point α)) :
    sortByTime points = sortByTime (points.filter fun p => p.time < t) ++
      sortByTime (points.filter fun p => t ≤ p.time) := by
  induction points with
  | nil => rfl
  | cons p ps ih =>
      rw [sortByTime_cons, ih]
      by_cases h : t ≤ p.time
      · rw [List.filter_cons_of_neg (by simpa using h), List.filter_cons_of_pos (by simpa using h)]
        refine insertByTime_append_of_lt _ fun q hq => lt_of_lt_of_le ?_ h
        simpa using List.of_mem_filter (mem_sortByTime.mp hq)
      · rw [List.filter_cons_of_pos (by simpa using h), List.filter_cons_of_neg (by simpa using h)]
        refine insertByTime_append (fun q hq => le_trans (not_le.mp h).le ?_) _
        simpa using List.of_mem_filter (mem_sortByTime.mp hq)

/-! ### Points of one instant -/

theorem filter_insertByTime (t : Instant) (p : Point α) : ∀ points : List (Point α),
    (insertByTime p points).filter (fun q => q.time = t) =
      (p :: points).filter fun q => q.time = t
  | [] => rfl
  | q :: qs => by
      rw [insertByTime]
      split_ifs with h
      · rfl
      · have ih := filter_insertByTime t p qs
        -- the point passes an earlier one, so at most one of the two stands at the instant
        by_cases hp : p.time = t
        · have hq : q.time ≠ t := fun hq => h (hp.trans hq.symm).le
          simp [hp, hq, ih]
        · simp [hp, List.filter_cons, ih]

/-- The sort is stable. -/
theorem filter_sortByTime (t : Instant) (points : List (Point α)) :
    (sortByTime points).filter (fun p => p.time = t) = points.filter fun p => p.time = t := by
  induction points with
  | nil => rfl
  | cons p ps ih =>
      rw [sortByTime_cons, filter_insertByTime, List.filter_cons, List.filter_cons, ih]

/-- Points in the order of time are the same if at every instant they are the same. -/
theorem Ordered.ext : ∀ {ps qs : List (Point α)}, Ordered ps → Ordered qs →
    (∀ t, ps.filter (fun p => p.time = t) = qs.filter fun p => p.time = t) → ps = qs
  | [], [], _, _, _ => rfl
  | [], q :: qs, _, _, h => by simpa using h q.time
  | p :: ps, [], _, _, h => by simpa using h p.time
  | p :: ps, q :: qs, hp, hq, h => by
      obtain ⟨hpFirst, hpRest⟩ := List.pairwise_cons.mp hp
      obtain ⟨hqFirst, hqRest⟩ := List.pairwise_cons.mp hq
      have hmem (x : Point α) : x ∈ p :: ps ↔ x ∈ q :: qs := by
        simpa using congrArg (x ∈ ·) (h x.time)
      have htime : p.time = q.time := by
        refine le_antisymm ?_ ?_
        · rcases List.mem_cons.mp ((hmem q).mpr List.mem_cons_self) with rfl | hq
          · exact le_rfl
          · exact hpFirst q hq
        · rcases List.mem_cons.mp ((hmem p).mp List.mem_cons_self) with rfl | hp
          · exact le_rfl
          · exact hqFirst p hp
      have hhead := h p.time
      rw [List.filter_cons_of_pos (by simp), List.filter_cons_of_pos (by simp [htime])] at hhead
      obtain rfl := (List.cons.inj hhead).1
      refine congrArg (p :: ·) (Ordered.ext hpRest hqRest fun t => ?_)
      have ht := h t
      by_cases hpt : p.time = t
      · rw [List.filter_cons_of_pos (by simpa), List.filter_cons_of_pos (by simpa)] at ht
        exact (List.cons.inj ht).2
      · rwa [List.filter_cons_of_neg (by simpa), List.filter_cons_of_neg (by simpa)] at ht

theorem sortByTime_congr {ps qs : List (Point α)}
    (h : ∀ t, ps.filter (fun p => p.time = t) = qs.filter fun p => p.time = t) :
    sortByTime ps = sortByTime qs :=
  (sortByTime_ordered ps).ext (sortByTime_ordered qs) fun t => by
    rw [filter_sortByTime, filter_sortByTime, h]

/-- The same points in another order, in which the points of each instant follow each other as
they did. -/
structure Reordered (ps qs : List (Point α)) : Prop where
  perm : ps.Perm qs
  at_instant : ∀ t, ps.filter (fun p => p.time = t) = qs.filter fun p => p.time = t

theorem filter_of_nodup {points : List (Point α)} (h : (points.map Point.time).Nodup)
    (t : Instant) : (points.filter fun p => p.time = t) = [] ∨
      ∃ p, (points.filter fun p => p.time = t) = [p] := by
  have hone : (points.filter fun p => p.time = t).length ≤ 1 := by
    have hcount := List.nodup_iff_count_le_one.mp h t
    rw [List.count, List.countP_map, List.countP_eq_length_filter] at hcount
    exact hcount
  cases hthere : points.filter fun p => p.time = t with
  | nil => exact Or.inl rfl
  | cons p rest =>
      obtain rfl : rest = [] := by simpa [hthere] using hone
      exact Or.inr ⟨p, rfl⟩

theorem Reordered.of_nodup {ps qs : List (Point α)} (h : ps.Perm qs)
    (hdistinct : (ps.map Point.time).Nodup) : Reordered ps qs := by
  refine ⟨h, fun t => ?_⟩
  have hfilter := h.filter fun p => p.time = t
  rcases filter_of_nodup hdistinct t with hnone | ⟨p, hone⟩
  · rw [hnone] at hfilter ⊢
    exact hfilter.nil_eq
  · rw [hone] at hfilter ⊢
    exact hfilter.singleton_eq

/-- Lists are sorted alike exactly if one is the other in another order, apart from the order at
each instant. -/
theorem sortByTime_eq_iff {ps qs : List (Point α)} :
    sortByTime ps = sortByTime qs ↔ Reordered ps qs := by
  constructor
  · intro h
    refine ⟨(sortByTime_perm ps).symm.trans (h ▸ sortByTime_perm qs), fun t => ?_⟩
    rw [← filter_sortByTime, h, filter_sortByTime]
  · exact fun h => sortByTime_congr h.at_instant

/-- The points of one instant are in order however they stand, so a stable sort keeps them, and
sorting by insertion is sorting by merging. -/
theorem sortByTime_eq_mergeSort (points : List (Point α)) :
    sortByTime points = points.mergeSort fun p q => p.time ≤ q.time := by
  refine (sortByTime_ordered points).ext (List.pairwise_mergeSort' Point.NotLater points)
    fun t => ?_
  rw [filter_sortByTime]
  have hkept : (points.filter fun p => p.time = t).Sublist
      (points.mergeSort fun p q => p.time ≤ q.time) := by
    refine List.sublist_mergeSort ?_ ?_ ?_ List.filter_sublist
    · simpa using fun a b c : Point α => le_trans
    · simpa using fun a b : Point α => le_total a.time b.time
    · refine List.pairwise_filter.mpr (List.pairwise_of_forall_mem_list fun p _ q _ hp hq => ?_)
      simp_all
  have hfilter := hkept.filter fun p => p.time = t
  rw [List.filter_filter] at hfilter
  simp only [Bool.and_self] at hfilter
  exact hfilter.eq_of_length ((List.mergeSort_perm points _).filter _).length_eq.symm

theorem sortByTime_sortByTime_append (points others : List (Point α)) :
    sortByTime (sortByTime points ++ others) = sortByTime (points ++ others) :=
  sortByTime_congr fun t => by
    rw [List.filter_append, List.filter_append, filter_sortByTime]

theorem sortByTime_append_sortByTime (points others : List (Point α)) :
    sortByTime (points ++ sortByTime others) = sortByTime (points ++ others) :=
  sortByTime_congr fun t => by
    rw [List.filter_append, List.filter_append, filter_sortByTime]

/-! ### Series in one -/

namespace Series

variable [Channel α]

/-- One series after another comes to the same as all points sorted at once. -/
theorem foldl_concat_points (series : List (Series α)) :
    (series.foldl concat empty).points = sortByTime (series.flatMap (·.points)) := by
  induction series using List.reverseRecOn with
  | nil => rfl
  | append_singleton series s ih =>
      rw [List.foldl_append, List.flatMap_append, List.flatMap_singleton]
      show sortByTime ((series.foldl concat empty).points ++ s.points) = _
      rw [ih, sortByTime_sortByTime_append]

theorem foldl_concat_total (series : List (Series α)) :
    (series.foldl concat empty).total = Traffic.sum (series.map (·.total)) := by
  induction series using List.reverseRecOn with
  | nil => rfl
  | append_singleton series s ih =>
      rw [List.foldl_append, List.map_append, Traffic.sum, List.foldl_append]
      exact congrArg (· + s.total) ih

/-- **Series are put together in any grouping.**  Of three series, whichever two come together
first, the points are those of the stable sort of all points, series by series: they stand in the
order of time, none is lost or added, and those of one instant come in the order of the series,
and within a series as it has them. -/
theorem concat_points_assoc (a b c : Series α) :
    let merged := (concat (concat a b) c).points
    let all := a.points ++ b.points ++ c.points
    merged = (concat a (concat b c)).points ∧
      merged = all.mergeSort (fun p q => p.time ≤ q.time) ∧
      merged.Pairwise (fun p q => p.time ≤ q.time) ∧ merged.Perm all ∧
      ∀ t, merged.filter (fun p => p.time = t) =
        a.points.filter (fun p => p.time = t) ++ b.points.filter (fun p => p.time = t) ++
          c.points.filter (fun p => p.time = t) := by
  intro merged all
  have hleft : merged = sortByTime all := sortByTime_sortByTime_append _ _
  have hright : (concat a (concat b c)).points = sortByTime all := by
    show sortByTime (a.points ++ sortByTime (b.points ++ c.points)) = sortByTime all
    rw [sortByTime_append_sortByTime, ← List.append_assoc]
  rw [hleft]
  refine ⟨hright.symm, sortByTime_eq_mergeSort all, sortByTime_ordered all, sortByTime_perm all,
    fun t => ?_⟩
  rw [filter_sortByTime, List.filter_append, List.filter_append]

/-- Two series of one instant, the second of them out of order: the first series comes first. -/
example :
    let time (ms : ℤ) := (Instant.ofEpochMillis? ms).getD .first
    let a : Series Float := ⟨[⟨time 5, ⟨1.0, 0.0⟩⟩], 0⟩
    let b : Series Float := ⟨[⟨time 5, ⟨2.0, 0.0⟩⟩, ⟨time 0, ⟨3.0, 0.0⟩⟩], 0⟩
    ((concat a (concat b a)).points.map (·.value.sent)) = [3.0, 1.0, 2.0, 1.0] := by
  decide

end Series

end RouteTraffic
