import RouteTraffic.Proofs.RecentSeries

/-! # Drawing a chart again

A chart is drawn again when samples have come in, when time has passed, and when its source lists
the same samples in another order.

* New samples that are not earlier than the old ones leave the drawn points as they are: the old
  chart is the beginning of the new one (`recentSeries_append`).
* As time passes, points leave at the left edge.  The instants that stay are the end of those
  that were drawn, and with them the values, apart from the few at the new left edge whose
  average had reached back to points that are gone (`recentSeries_slide`).
* The order of the samples does not show, unless samples of one instant change places
  (`recentSeries_reordered`).

For the first two, each stage says how it treats two lists put together: the sort keeps them apart,
the gaps of the second depend on the last point of the first alone (`fillAfter_append`), and the
average takes from the first the newest values (`smoothAfter_append`), which are forgotten after a
width of points (`smoothAfter_drop`).  The last is a matter of the window alone, which is the same
for two lists at every moment only if they differ in no more than this (`inWindow_eq_iff`). -/

namespace RouteTraffic

variable {α : Type}

/-! ### The window -/

theorem inWindow_append {points later : List (Point α)}
    (h : ∀ p ∈ points, ∀ q ∈ later, p.time ≤ q.time) (now : Instant) (window : Span) :
    inWindow (points ++ later) now window =
      inWindow points now window ++ inWindow later now window := by
  unfold inWindow
  rw [List.filter_append]
  exact sortByTime_append fun p hp q hq =>
    h p (List.mem_of_mem_filter hp) q (List.mem_of_mem_filter hq)

/-- The start of the window moves forward with time, also while the calendar cuts it off. -/
theorem windowStart_mono {now later : Instant} (hnow : now.isOrdinary) (hlater : later.isOrdinary)
    {window : Span} (hwindow : 0 ≤ window.nanos) (h : now ≤ later) :
    windowStart now window ≤ windowStart later window := by
  obtain ⟨hstart, hpos⟩ := windowStart_position hnow hwindow
  obtain ⟨hstart', hpos'⟩ := windowStart_position hlater hwindow
  have hle := (Instant.le_iff_position hnow hlater).mp h
  rw [Instant.le_iff_position hstart hstart', hpos, hpos']
  omega

theorem inWindow_suffix {now later : Instant} {window : Span}
    (h : windowStart now window ≤ windowStart later window) (points : List (Point α)) :
    inWindow points later window <:+ inWindow points now window := by
  unfold inWindow
  rw [sortByTime_split (windowStart later window)
    (points.filter fun p => windowStart now window ≤ p.time), List.filter_filter,
    List.filter_filter]
  have hkept : (points.filter fun p => decide (windowStart later window ≤ p.time) &&
      decide (windowStart now window ≤ p.time)) =
        points.filter fun p => windowStart later window ≤ p.time := by
    apply List.filter_congr
    intro p _
    rw [← Bool.decide_and, decide_eq_decide]
    exact and_iff_left_of_imp fun hp => le_trans h hp
  rw [hkept]
  exact List.suffix_append _ _

theorem inWindow_first (points : List (Point α)) :
    inWindow points .first ⟨0⟩ = sortByTime points := by
  have hstart : windowStart .first ⟨0⟩ = .first := by decide
  have hall (t : Instant) : Instant.first ≤ t := by
    obtain ⟨hseconds, -⟩ := t.inCalendar
    rw [Instant.le_iff]
    rcases hseconds.lt_or_eq with hlt | heq
    · exact Or.inl hlt
    · exact Or.inr ⟨heq, Nat.zero_le _⟩
  rw [inWindow, hstart, List.filter_eq_self.mpr fun p _ => decide_eq_true (hall p.time)]

theorem Reordered.filter {ps qs : List (Point α)} (h : Reordered ps qs) (start : Instant) :
    Reordered (ps.filter fun p => start ≤ p.time) (qs.filter fun p => start ≤ p.time) := by
  refine ⟨h.perm.filter _, fun t => ?_⟩
  rw [List.filter_comm, h.at_instant, List.filter_comm]

/-- Two lists of samples have the same windows exactly if they differ only in the order in which
different instants come. -/
theorem inWindow_eq_iff {ps qs : List (Point α)} :
    (∀ now window, inWindow ps now window = inWindow qs now window) ↔ Reordered ps qs := by
  constructor
  · intro h
    rw [← sortByTime_eq_iff, ← inWindow_first, ← inWindow_first, h]
  · exact fun h now window => sortByTime_eq_iff.mpr (h.filter _)

variable [Channel α]

/-! ### Gaps -/

/-- What fills the gaps of a list depends on the points before it through the last of them. -/
theorem fillAfter_append (ms : ℤ) (more : List (Point α)) :
    ∀ (start : Point α) (points : List (Point α)),
      fillAfter ms start (points ++ more) =
        fillAfter ms start points ++ fillAfter ms (points.getLastD start) more
  | _, [] => rfl
  | start, p :: ps => by
      rw [List.cons_append, fillAfter, fillAfter_append ms more p ps, fillAfter,
        List.getLastD_cons, List.append_assoc, List.cons_append]

theorem fillGaps_prefix (points more : List (Point α)) (interval : Span) :
    fillGaps points interval <+: fillGaps (points ++ more) interval := by
  unfold fillGaps
  split_ifs
  · exact List.prefix_append _ _
  · cases points with
    | nil => exact List.nil_prefix
    | cons p ps =>
        simp only [List.cons_append, fillAfter_append]
        exact List.prefix_append (p :: fillAfter interval.wholeMillis p ps) _

theorem fillGaps_suffix (before points : List (Point α)) (interval : Span) :
    fillGaps points interval <:+ fillGaps (before ++ points) interval := by
  unfold fillGaps
  split_ifs
  · exact List.suffix_append _ _
  · cases points with
    | nil => exact List.nil_suffix
    | cons q qs =>
        cases before with
        | nil => exact List.suffix_rfl
        | cons p ps =>
            simp only [List.cons_append, fillAfter_append, fillAfter]
            exact ((List.suffix_append _ _).trans (List.suffix_append _ _)).trans
              (List.suffix_cons p _)

/-! ### Averages -/

/-- The values that the average of the next point takes in, the newest first. -/
def newestValues (width : ℕ) (before : List (Traffic α)) (points : List (Point α)) :
    List (Traffic α) :=
  points.foldl (fun values p => (p.value :: values).take width) before

theorem smoothAfter_append (width : ℕ) (more : List (Point α)) :
    ∀ (before : List (Traffic α)) (points : List (Point α)),
      smoothAfter width before (points ++ more) =
        smoothAfter width before points ++ smoothAfter width (newestValues width before points) more
  | _, [] => rfl
  | before, p :: ps => by
      simp only [List.cons_append, smoothAfter]
      rw [smoothAfter_append width more _ ps]
      rfl

theorem smoothAfter_congr {width : ℕ} {before before' : List (Traffic α)}
    (h : before.take width = before'.take width) (points : List (Point α)) :
    smoothAfter (width + 1) before points = smoothAfter (width + 1) before' points := by
  cases points with
  | nil => rfl
  | cons p ps => simp only [smoothAfter, List.take_succ_cons, h]

/-- Each point makes the average forget one of the values before the first: where these agree on
all but the last `n`, the averages agree from the `n`-th point on. -/
theorem smoothAfter_drop {width : ℕ} : ∀ (n : ℕ), n ≤ width → ∀ {before before' : List (Traffic α)},
    before.take (width - n) = before'.take (width - n) → ∀ points : List (Point α),
      (smoothAfter (width + 1) before points).drop n =
        (smoothAfter (width + 1) before' points).drop n
  | 0, _, _, _, h, points => smoothAfter_congr h points
  | n + 1, hn, before, before', h, points => by
      cases points with
      | nil => rfl
      | cons p ps =>
          -- the value of `p` stands first in both, so one more of the values has to agree
          simp only [smoothAfter, List.drop_succ_cons]
          refine smoothAfter_drop n (by omega) ?_ ps
          rw [List.take_take, List.take_take, min_eq_left (by omega),
            show width - n = width - (n + 1) + 1 by omega, List.take_succ_cons,
            List.take_succ_cons, h]

theorem length_movingAverage (points : List (Point α)) (width : ℕ) :
    (movingAverage points width).length = points.length := by
  simpa only [List.length_map] using congrArg List.length (movingAverage_times points width)

/-- After one point less than a width the average knows nothing of the points before. -/
theorem movingAverage_drop (before points : List (Point α)) (width : ℕ) :
    (movingAverage (before ++ points) width).drop (before.length + (max width 1 - 1)) =
      (movingAverage points width).drop (max width 1 - 1) := by
  obtain ⟨n, hn⟩ : ∃ n, max width 1 = n + 1 := ⟨max width 1 - 1, by omega⟩
  have hlength := length_movingAverage before width
  unfold movingAverage at hlength ⊢
  rw [smoothAfter_append, ← List.drop_drop, List.drop_left' hlength, hn, Nat.add_sub_cancel]
  exact smoothAfter_drop n le_rfl (by rw [Nat.sub_self, List.take_zero, List.take_zero]) points

/-! ### The chart -/

/-- **No look-ahead.**  Samples that are not earlier than the ones before leave the points of the
chart as they are, instants and values, and only add points after them. -/
theorem recentSeries_append (points later : List (Point α))
    (h : ∀ p ∈ points, ∀ q ∈ later, p.time ≤ q.time) (now : Instant) (config : SeriesConfig) :
    recentSeries points now config <+: recentSeries (points ++ later) now config := by
  unfold recentSeries
  rw [inWindow_append h]
  obtain ⟨more, hmore⟩ := fillGaps_prefix (inWindow points now config.window)
    (inWindow later now config.window) config.interval
  rw [← hmore, movingAverage, movingAverage, smoothAfter_append]
  exact List.prefix_append _ _

/-- A sample at an instant that is drawn already, given before an earlier one and after it. -/
theorem recentSeries_append_same_instant :
    let time (ms : ℤ) := (Instant.ofEpochMillis? ms).getD .first
    let points : List (Point Float) := [⟨time 180000, ⟨300.0, 0.0⟩⟩, ⟨time 0, ⟨0.0, 9.0⟩⟩]
    let later : List (Point Float) := [⟨time 400000, ⟨1.0, 1.0⟩⟩, ⟨time 180000, ⟨6.0, 0.0⟩⟩]
    (∀ p ∈ points, ∀ q ∈ later, p.time ≤ q.time) ∧
      recentSeries points (time 500000) .standard <+:
        recentSeries (points ++ later) (time 500000) .standard := by
  intro time points later
  have h : ∀ p ∈ points, ∀ q ∈ later, p.time ≤ q.time := by decide
  exact ⟨h, recentSeries_append points later h (time 500000) .standard⟩

/-- **A sliding window.**  As time passes, points leave at the left edge.  The instants that stay
are the end of those that were drawn, and from the width of the average on their values stay, too;
only the values of the first points may change. -/
theorem recentSeries_slide (points : List (Point α)) (config : SeriesConfig)
    (hwindow : 0 < config.window.nanos) (now later : Instant) (hnow : now.isOrdinary)
    (hlater : later.isOrdinary) (h : now ≤ later) :
    let before := recentSeries points now config
    let after := recentSeries points later config
    after.map Point.time <:+ before.map Point.time ∧
      ∀ i, max config.smoothing 1 - 1 ≤ i →
        after[i]? = before[before.length - after.length + i]? := by
  intro before after
  obtain ⟨kept, hkept⟩ := inWindow_suffix (windowStart_mono hnow hlater hwindow.le h) points
  obtain ⟨gone, hgone⟩ := fillGaps_suffix kept (inWindow points later config.window) config.interval
  set stay := fillGaps (inWindow points later config.window) config.interval
  have hafter : after = movingAverage stay config.smoothing := rfl
  have hbefore : before = movingAverage (gone ++ stay) config.smoothing := by
    rw [hgone, hkept]
    rfl
  constructor
  · rw [hafter, hbefore, movingAverage_times, movingAverage_times, List.map_append]
    exact List.suffix_append _ _
  · intro i hi
    obtain ⟨k, rfl⟩ := Nat.exists_eq_add_of_le hi
    have hgoneLength : before.length - after.length = gone.length := by
      rw [hafter, hbefore, length_movingAverage, length_movingAverage, List.length_append,
        Nat.add_sub_cancel]
    rw [hgoneLength, ← Nat.add_assoc, ← List.getElem?_drop, ← List.getElem?_drop, hafter, hbefore,
      movingAverage_drop]

/-- Three samples as the first of them leaves the window: its gap to the second is filled before,
and the averages of the second and of the point after it change. -/
theorem recentSeries_slide_past_first :
    let time (ms : ℤ) := (Instant.ofEpochMillis? ms).getD .first
    let points : List (Point Float) :=
      [⟨time 330000, ⟨7.0, 1.0⟩⟩, ⟨time 0, ⟨0.0, 9.0⟩⟩, ⟨time 150000, ⟨5.0, 0.0⟩⟩]
    let before := recentSeries points (time 600000) .standard
    let after := recentSeries points (time 600001) .standard
    0 < SeriesConfig.standard.window.nanos ∧ (time 600000).isOrdinary ∧
      (time 600001).isOrdinary ∧ time 600000 ≤ time 600001 ∧
      after.map Point.time <:+ before.map Point.time ∧
      ∀ i, max SeriesConfig.standard.smoothing 1 - 1 ≤ i →
        after[i]? = before[before.length - after.length + i]? := by
  intro time points before after
  have hwindow : 0 < SeriesConfig.standard.window.nanos := by decide
  have hnow : (time 600000).isOrdinary := by decide
  have hlater : (time 600001).isOrdinary := by decide
  have hle : time 600000 ≤ time 600001 := by decide
  exact ⟨hwindow, hnow, hlater, hle,
    recentSeries_slide points .standard hwindow (time 600000) (time 600001) hnow hlater hle⟩

/-- **The order of the samples.**  The chart is the same for the same samples in any order that
leaves those of one instant as they follow each other.  Where no two samples share an instant, it is
the same in every order. -/
theorem recentSeries_reordered (now : Instant) (config : SeriesConfig) :
    (∀ ps qs : List (Point α), Reordered ps qs →
        recentSeries ps now config = recentSeries qs now config) ∧
      ∀ ps qs : List (Point α), ps.Perm qs → (ps.map Point.time).Nodup →
        recentSeries ps now config = recentSeries qs now config := by
  have hsame (ps qs : List (Point α)) (h : Reordered ps qs) :
      recentSeries ps now config = recentSeries qs now config := by
    unfold recentSeries
    rw [inWindow_eq_iff.mpr h]
  exact ⟨hsame, fun ps qs hperm hdistinct => hsame ps qs (.of_nodup hperm hdistinct)⟩

/-- Two samples of one instant keep their order and an earlier one moves behind them; of samples at
different instants, the last comes first. -/
theorem recentSeries_reordered_shared :
    let time (ms : ℤ) := (Instant.ofEpochMillis? ms).getD .first
    let early : Point Float := ⟨time 0, ⟨6.0, 0.0⟩⟩
    let late : Point Float := ⟨time 180000, ⟨300.0, 0.0⟩⟩
    let again : Point Float := ⟨time 180000, ⟨9.0, 9.0⟩⟩
    let drawn (points : List (Point Float)) := recentSeries points (time 500000) .standard
    Reordered [early, late, again] [late, again, early] ∧
      drawn [early, late, again] = drawn [late, again, early] ∧
      ([early, late].Perm [late, early] ∧ ([early, late].map Point.time).Nodup) ∧
      drawn [early, late] = drawn [late, early] := by
  intro time early late again drawn
  have hmoved : Reordered [early, late, again] [late, again, early] := sortByTime_eq_iff.mp rfl
  have hperm : [early, late].Perm [late, early] := .swap late early []
  have hdistinct : ([early, late].map Point.time).Nodup := by decide
  have hdrawn := recentSeries_reordered (α := Float) (time 500000) .standard
  exact ⟨hmoved, hdrawn.1 _ _ hmoved, ⟨hperm, hdistinct⟩, hdrawn.2 _ _ hperm hdistinct⟩

/-- Samples of one instant that change places show. -/
example :
    let p : Point Float := ⟨.first, ⟨1.0, 0.0⟩⟩
    let q : Point Float := ⟨.first, ⟨3.0, 0.0⟩⟩
    recentSeries [p, q] .first .standard ≠ recentSeries [q, p] .first .standard := by
  decide

end RouteTraffic
