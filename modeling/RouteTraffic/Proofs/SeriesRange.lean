import RouteTraffic.Proofs.RecentSeries
import Mathlib.Algebra.Order.BigOperators.Group.List
import Mathlib.Algebra.Order.Field.Rat
import Mathlib.Data.List.MinMax
import Mathlib.Tactic.Linarith

/-! # The range of the recent part of a series

With counts read as rational numbers, filling and smoothing make up no extremes: in each channel
the recent part of a series stays between the least and the greatest value of the points in the
window, and it rises or falls throughout if they do (`recentSeries_follows`).

Both stages only form weighted means.  Between two points a bridge goes from one to the other in
equal steps, each a mean of the two (`bridge_values_sublist`).  An average over the newest values
moves toward a value that is at least as large as all of them, while the average still grows and
when it drops the oldest (`mean_le_mean_take`).  What is said of lower bounds and of rising values
holds of every linear reading of a count, hence of the negated channels too, and this gives the
upper bounds and the falling values. -/

namespace RouteTraffic

/-! ### Linear readings -/

/-- A number is read off counts in a way that the arithmetic of series respects. -/
structure IsLinear (c : Traffic ℚ → ℚ) : Prop where
  zero : c 0 = 0
  add (a b : Traffic ℚ) : c (a + b) = c a + c b
  lerp (a b : Traffic ℚ) (t : ℚ) : c (a.lerp b t) = c a + (c b - c a) * t
  divideBy (a : Traffic ℚ) (n : ℕ) : c (a.divideBy n) = c a / n

theorem IsLinear.sent : IsLinear Traffic.sent :=
  ⟨rfl, fun _ _ => rfl, fun _ _ _ => rfl, fun _ _ => rfl⟩

theorem IsLinear.received : IsLinear Traffic.received :=
  ⟨rfl, fun _ _ => rfl, fun _ _ _ => rfl, fun _ _ => rfl⟩

namespace IsLinear

variable {c : Traffic ℚ → ℚ}

theorem neg (hc : IsLinear c) : IsLinear fun v => -c v where
  zero := by rw [hc.zero, neg_zero]
  add a b := by rw [hc.add, neg_add]
  lerp a b t := by rw [hc.lerp]; ring
  divideBy a n := by rw [hc.divideBy, neg_div]

theorem sum (hc : IsLinear c) (values : List (Traffic ℚ)) :
    c (Traffic.sum values) = (values.map c).sum := by
  induction values using List.reverseRecOn with
  | nil => exact hc.zero
  | append_singleton values v ih =>
      rw [Traffic.sum_concat, hc.add, ih, List.map_append, List.sum_append, List.map_singleton,
        List.sum_singleton]

end IsLinear

/-! ### Means -/

/-- The arithmetic mean. -/
def mean (l : List ℚ) : ℚ := l.sum / l.length

theorem le_mean {l : List ℚ} (hl : l ≠ []) {lo : ℚ} (h : ∀ x ∈ l, lo ≤ x) : lo ≤ mean l := by
  have hpos : (0 : ℚ) < l.length := by exact_mod_cast List.length_pos_of_ne_nil hl
  rw [mean, le_div_iff₀ hpos, mul_comm, ← nsmul_eq_mul]
  exact List.card_nsmul_le_sum l lo h

/-- The mean of the newest values does not fall when a value comes that is at least as large as all
of them. -/
theorem mean_le_mean_take {l : List ℚ} (hl : l ≠ []) {width : ℕ} (hwidth : l.length ≤ width) {x : ℚ}
    (h : ∀ y ∈ l, y ≤ x) : mean l ≤ mean ((x :: l).take width) := by
  have hpos : (0 : ℚ) < l.length := by exact_mod_cast List.length_pos_of_ne_nil hl
  rcases hwidth.lt_or_eq with hgrow | rfl
  · -- all values are kept, and the mean moves toward `x`
    have hsum : l.sum ≤ l.length * x := by
      rw [← nsmul_eq_mul]
      exact List.sum_le_card_nsmul l x h
    rw [List.take_of_length_le (by rw [List.length_cons]; omega), mean, mean, List.sum_cons,
      List.length_cons, Nat.cast_add_one, div_le_div_iff₀ hpos (by linarith)]
    linarith
  · -- `x` takes the place of the oldest value
    obtain ⟨newest, oldest, rfl⟩ := (List.eq_nil_or_concat l).resolve_left hl
    rw [List.concat_eq_append] at *
    have htake : (x :: (newest ++ [oldest])).take (newest ++ [oldest]).length = x :: newest := by
      rw [List.length_append, List.length_singleton, List.take_succ_cons, List.take_left']
      rfl
    have holdest := h oldest (by simp)
    rw [htake, mean, mean, List.length_append, List.length_singleton, List.length_cons,
      List.sum_append, List.sum_singleton, List.sum_cons]
    gcongr ?_ / _
    linarith

/-! ### Bridges -/

theorem exists_fraction_of_mem_bridge {start stop q : Point ℚ} {ms : ℤ}
    (hq : q ∈ bridge start stop ms) :
    ∃ t : ℚ, 0 ≤ t ∧ t ≤ 1 ∧ q.value = start.value.lerp stop.value t := by
  obtain ⟨j, -, hj, hvalue⟩ := exists_lerp_of_mem_bridge hq
  have hle : (j : ℚ) ≤ ((stop.time.since start.time).wholeMillis / ms).toNat := by exact_mod_cast hj
  exact ⟨_, by positivity, div_le_one_of_le₀ hle (by positivity), hvalue⟩

namespace IsLinear

variable {c : Traffic ℚ → ℚ} {start stop : Point ℚ} {ms : ℤ} {lo : ℚ}

theorem le_lerp (hc : IsLinear c) {a b : Traffic ℚ} (ha : lo ≤ c a) (hb : lo ≤ c b) {t : ℚ}
    (h0 : 0 ≤ t) (h1 : t ≤ 1) : lo ≤ c (a.lerp b t) := by
  calc lo = lo * (1 - t) + lo * t := by ring
    _ ≤ c a * (1 - t) + c b * t :=
        add_le_add (mul_le_mul_of_nonneg_right ha (by linarith)) (mul_le_mul_of_nonneg_right hb h0)
    _ = c (a.lerp b t) := by rw [hc.lerp]; ring

theorem bridge_rising (hc : IsLinear c) (h : c start.value ≤ c stop.value) :
    (start :: bridge start stop ms ++ [stop]).Pairwise fun p q => c p.value ≤ c q.value := by
  have hends : ∀ q ∈ bridge start stop ms,
      c start.value ≤ c q.value ∧ c q.value ≤ c stop.value := by
    intro q hq
    obtain ⟨t, h0, h1, hvalue⟩ := exists_fraction_of_mem_bridge hq
    rw [hvalue]
    exact ⟨hc.le_lerp le_rfl h h0 h1,
      neg_le_neg_iff.mp (hc.neg.le_lerp (neg_le_neg h) le_rfl h0 h1)⟩
  have hsteps : (bridge start stop ms).Pairwise fun p q => c p.value ≤ c q.value := by
    rw [← List.pairwise_map (f := Point.value) (R := fun v w => c v ≤ c w)]
    refine List.Pairwise.sublist (bridge_values_sublist start stop ms) (List.pairwise_map.mpr ?_)
    refine (List.pairwise_lt_range' 1).imp fun {j k} hjk => ?_
    generalize ((stop.time.since start.time).wholeMillis / ms).toNat = steps
    have hle : (j : ℚ) / steps ≤ (k : ℚ) / steps := by gcongr
    have hstep := mul_le_mul_of_nonneg_left hle (sub_nonneg.mpr h)
    rw [hc.lerp, hc.lerp]
    exact add_le_add_right hstep _
  rw [List.cons_append, List.pairwise_cons, List.pairwise_append]
  refine ⟨fun q hq => ?_, hsteps, List.pairwise_singleton _ _, fun q hq r hr => ?_⟩
  · rcases List.mem_append.mp hq with hq | hq
    · exact (hends q hq).1
    · exact List.mem_singleton.mp hq ▸ h
  · exact List.mem_singleton.mp hr ▸ (hends q hq).2

/-! ### Filled gaps -/

theorem gapPoints_rising (hc : IsLinear c) (h : c start.value ≤ c stop.value) :
    (start :: gapPoints start stop ms ++ [stop]).IsChain fun p q => c p.value ≤ c q.value := by
  unfold gapPoints
  split
  · exact (hc.bridge_rising h).isChain
  · exact List.isChain_pair.mpr h

theorem fillGaps_rising (hc : IsLinear c) {points : List (Point ℚ)} (interval : Span)
    (h : points.Pairwise fun p q => c p.value ≤ c q.value) :
    (fillGaps points interval).Pairwise fun p q => c p.value ≤ c q.value := by
  have htrans : IsTrans (Point ℚ) fun p q => c p.value ≤ c q.value := ⟨fun _ _ _ => le_trans⟩
  rcases fillGaps_cases points interval with hfill | ⟨p, ps, rfl, -, hfill⟩ <;> rw [hfill]
  · exact h
  · exact (fillAfter_isChain (h.isChain.imp fun _ _ hpq => hc.gapPoints_rising hpq)).pairwise

/-! ### Smoothed values -/

variable {width : ℕ}

theorem average (hc : IsLinear c) (values : List (Traffic ℚ)) :
    c ((Traffic.sum values).divideBy values.length) = mean (values.map c) := by
  rw [hc.divideBy, hc.sum, mean, List.length_map]

theorem average_reverse (hc : IsLinear c) (values : List (Traffic ℚ)) :
    c ((Traffic.sum values.reverse).divideBy values.length) = mean (values.map c) := by
  rw [← List.length_reverse, hc.average, mean, mean, List.map_reverse, List.sum_reverse,
    List.length_reverse]

/-- Smoothed values rise, the first of them from the mean of the values before. -/
theorem smoothAfter_rising (hc : IsLinear c) (hwidth : 0 < width) {points : List (Point ℚ)}
    {before : List (Traffic ℚ)} (hlength : before.length ≤ width)
    (hbefore : ∀ v ∈ before, ∀ p ∈ points, c v ≤ c p.value)
    (h : points.Pairwise fun p q => c p.value ≤ c q.value) :
    (smoothAfter width before points).IsChain (fun p q => c p.value ≤ c q.value) ∧
      (before ≠ [] → ∀ q ∈ (smoothAfter width before points).head?,
        mean (before.map c) ≤ c q.value) := by
  induction points generalizing before with
  | nil => exact ⟨List.isChain_nil, fun _ q hq => by cases hq⟩
  | cons p ps ih =>
      obtain ⟨hp, hps⟩ := List.pairwise_cons.mp h
      have hvalues : ∀ v ∈ (p.value :: before).take width, ∀ q ∈ ps, c v ≤ c q.value := by
        intro v hv q hq
        rcases List.mem_cons.mp (List.mem_of_mem_take hv) with rfl | hv
        · exact hp q hq
        · exact hbefore v hv q (List.mem_cons_of_mem p hq)
      obtain ⟨hchain, hhead⟩ := ih (List.length_take_le width (p.value :: before)) hvalues hps
      rw [smoothAfter]
      refine ⟨List.isChain_cons.mpr ⟨fun q hq => ?_, hchain⟩, fun hne q hq => ?_⟩
      · rw [hc.average_reverse]
        exact hhead (by simp [hwidth.ne']) q hq
      · rw [List.head?_cons, Option.mem_some_iff] at hq
        rw [← hq, hc.average_reverse, List.map_take, List.map_cons]
        refine mean_le_mean_take (by simpa using hne) (by simpa using hlength) ?_
        exact List.forall_mem_map.mpr fun v hv => hbefore v hv p List.mem_cons_self

/-! ### The recent part -/

variable {points : List (Point ℚ)} {now : Instant} {config : SeriesConfig}

theorem le_of_mem_recentSeries (hc : IsLinear c)
    (h : ∀ p ∈ inWindow points now config.window, lo ≤ c p.value) :
    ∀ q ∈ recentSeries points now config, lo ≤ c q.value := by
  refine forall_mem_recentSeries (P := fun v => lo ≤ c v) (R := fun v => lo ≤ c v)
    (fun start stop ms _ hstart hstop q hq => ?_) (fun values hpos _ hvalues => ?_) h
  · obtain ⟨t, h0, h1, hvalue⟩ := exists_fraction_of_mem_bridge hq
    rw [hvalue]
    exact hc.le_lerp hstart hstop h0 h1
  · rw [hc.average]
    exact le_mean (by simpa using List.ne_nil_of_length_pos hpos) (List.forall_mem_map.mpr hvalues)

theorem recentSeries_rising (hc : IsLinear c)
    (h : (inWindow points now config.window).Pairwise fun p q => c p.value ≤ c q.value) :
    (recentSeries points now config).Pairwise fun p q => c p.value ≤ c q.value := by
  have htrans : IsTrans (Point ℚ) fun p q => c p.value ≤ c q.value := ⟨fun _ _ _ => le_trans⟩
  exact (hc.smoothAfter_rising (by omega) (Nat.zero_le _) (List.forall_mem_nil _)
    (hc.fillGaps_rising _ h)).1.pairwise

end IsLinear

/-- A reading of a series keeps to that of given points: it lies between their least and their
greatest value, does not fall if theirs do not, and does not rise if theirs do not. -/
structure Follows (c : Traffic ℚ → ℚ) (kept series : List (Point ℚ)) : Prop where
  between : ∀ q ∈ series, ∃ least ∈ kept, ∃ greatest ∈ kept,
    (∀ p ∈ kept, c least.value ≤ c p.value ∧ c p.value ≤ c greatest.value) ∧
      c least.value ≤ c q.value ∧ c q.value ≤ c greatest.value
  rising : (kept.Pairwise fun p q => c p.value ≤ c q.value) →
    series.Pairwise fun p q => c p.value ≤ c q.value
  falling : (kept.Pairwise fun p q => c q.value ≤ c p.value) →
    series.Pairwise fun p q => c q.value ≤ c p.value

theorem exists_least {β : Type} (f : β → ℚ) {l : List β} (hl : l ≠ []) :
    ∃ x ∈ l, ∀ y ∈ l, f x ≤ f y := by
  obtain ⟨x, hx⟩ := Option.ne_none_iff_exists'.mp (mt (List.argmin_eq_none (f := f)).mp hl)
  exact ⟨x, List.argmin_mem hx, fun y hy => List.le_of_mem_argmin (f := f) hy hx⟩

theorem IsLinear.follows {c : Traffic ℚ → ℚ} (hc : IsLinear c) (points : List (Point ℚ))
    (now : Instant) (config : SeriesConfig) :
    Follows c (inWindow points now config.window) (recentSeries points now config) where
  between q hq := by
    have hkept : inWindow points now config.window ≠ [] := by
      intro hnil
      rw [recentSeries, hnil, fillGaps_nil] at hq
      cases hq
    obtain ⟨least, hleast, hmin⟩ := exists_least (fun p => c p.value) hkept
    obtain ⟨greatest, hgreatest, hmax⟩ := exists_least (fun p => -c p.value) hkept
    refine ⟨least, hleast, greatest, hgreatest,
      fun p hp => ⟨hmin p hp, neg_le_neg_iff.mp (hmax p hp)⟩,
      hc.le_of_mem_recentSeries hmin q hq, ?_⟩
    exact neg_le_neg_iff.mp (hc.neg.le_of_mem_recentSeries hmax q hq)
  rising h := hc.recentSeries_rising h
  falling h := by
    have hneg := hc.neg.recentSeries_rising (h.imp fun hqp => neg_le_neg hqp)
    exact hneg.imp fun hpq => neg_le_neg_iff.mp hpq

theorem times_inWindow_sublist {α : Type} [Channel α] (points : List (Point α)) (now : Instant)
    (config : SeriesConfig) : ((inWindow points now config.window).map Point.time).Sublist
      ((recentSeries points now config).map Point.time) := by
  rw [recentSeries, movingAverage_times]
  exact (sublist_fillGaps _ _).map Point.time

/-- **Filling and smoothing make up no extremes.**  Whatever points there are, in leap seconds too,
the recent part of a series has a value at each point of the window, and keeps to the values there
in both channels. -/
theorem recentSeries_follows (points : List (Point ℚ)) (now : Instant) (config : SeriesConfig) :
    let kept := inWindow points now config.window
    let series := recentSeries points now config
    (kept.map Point.time).Sublist (series.map Point.time) ∧
      Follows Traffic.sent kept series ∧ Follows Traffic.received kept series :=
  ⟨times_inWindow_sublist points now config, IsLinear.sent.follows points now config,
    IsLinear.received.follows points now config⟩

example :
    let points : List (Point ℚ) := [⟨⟨0, 0, by decide, by decide⟩, ⟨0, 0⟩⟩,
      ⟨⟨180, 0, by decide, by decide⟩, ⟨300, 150⟩⟩]
    (recentSeries points ⟨300, 0, by decide, by decide⟩ .standard).map (·.value.sent) =
      [0, 50, 100, 200] := by
  decide +kernel

end RouteTraffic
