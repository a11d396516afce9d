import RouteTraffic.Proofs.Sorting
import RouteTraffic.Series.Recent
import Mathlib.Data.List.Range
import Mathlib.Tactic.Positivity
import Mathlib.Tactic.Ring

/-! # The points of a filled gap

Between two ordinary points the synthetic ones stand one interval apart, counted from the first,
as long as they come before the second (`bridge_eq`).  The interval of a series is therefore
never exceeded between neighbours of the filled series (`fillGaps_within`): not between the
synthetic points, not from the last of them to the point after the gap, and not across a gap
that is longer than the interval by less than a millisecond and is left as it is.

Properties of single points are followed through the filled series by what they say of one gap
(`forall_mem_fillGaps`). -/

namespace RouteTraffic

variable {α : Type}

/-- No point is in a leap second. -/
def AllOrdinary (points : List (Point α)) : Prop := ∀ p ∈ points, p.time.isOrdinary

/-- The second point is not earlier than the first and at most so many whole milliseconds
later. -/
def Point.Within (ms : ℤ) (p q : Point α) : Prop :=
  p.NotLater q ∧ (q.time.since p.time).wholeMillis ≤ ms

/-- On the line of nanoseconds, whole milliseconds are counted by their remainder too. -/
theorem Point.within_iff {ms : ℤ} (hms : 0 ≤ ms) {p q : Point α} (hp : p.time.isOrdinary)
    (hq : q.time.isOrdinary) :
    p.Within ms q ↔ p.time.position ≤ q.time.position ∧
      q.time.position - p.time.position < (ms + 1) * 1000000 := by
  rw [Point.Within, Point.NotLater, Instant.le_iff_position hp hq, Span.wholeMillis_le_iff hms,
    Instant.since_nanos hq hp]

theorem ordered_of_within {ms : ℤ} {points : List (Point α)}
    (h : points.IsChain (Point.Within ms)) : Ordered points :=
  (h.imp fun _ _ hpq => hpq.1).pairwise

theorem Ordered.isChain_of_mem {points : List (Point α)} (hord : Ordered points)
    {R : Point α → Point α → Prop} (h : ∀ p ∈ points, ∀ q ∈ points, p.NotLater q → R p q) :
    points.IsChain R :=
  List.IsChain.imp_of_mem_imp (fun p q hp hq hpq => h p hp q hq hpq) hord.isChain

/-! ### Lists of optional points -/

theorem takeWhile_isSome_range' {β : Type} (f : ℕ → Option β) {m n : ℕ} (hmn : m ≤ n)
    (hsome : ∀ j, 1 ≤ j → j ≤ m → (f j).isSome) (hnone : m < n → f (m + 1) = none) :
    ((List.range' 1 n).map f).takeWhile Option.isSome = (List.range' 1 m).map f := by
  obtain ⟨k, rfl⟩ : ∃ k, n = m + k := ⟨n - m, by omega⟩
  have hrest : ((List.range' (1 + m) k).map f).takeWhile Option.isSome = [] := by
    cases k with
    | zero => rfl
    | succ k =>
        rw [List.range'_succ, List.map_cons, Nat.add_comm 1 m, hnone (by omega)]
        rfl
  rw [← List.range'_append_1, List.map_append, List.takeWhile_append_of_pos, hrest,
    List.append_nil]
  intro o ho
  obtain ⟨j, hj, rfl⟩ := List.mem_map.mp ho
  rw [List.mem_range'_1] at hj
  exact hsome j hj.1 (by omega)

theorem filterMap_view {β γ δ : Type} {f : γ → Option β} {view : β → δ} {g : γ → δ}
    {P : β → Prop} (l : List γ) (h : ∀ x ∈ l, ∃ y, f x = some y ∧ view y = g x ∧ P y) :
    (l.filterMap f).map view = l.map g ∧ ∀ y ∈ l.filterMap f, P y := by
  induction l with
  | nil => simp
  | cons x l ih =>
      obtain ⟨y, hy, hv, hP⟩ := h x List.mem_cons_self
      obtain ⟨h1, h2⟩ := ih fun z hz => h z (List.mem_cons_of_mem x hz)
      rw [List.filterMap_cons_some hy]
      refine ⟨by rw [List.map_cons, List.map_cons, hv, h1], ?_⟩
      intro z hz
      rcases List.mem_cons.mp hz with rfl | hz
      · exact hP
      · exact h2 z hz

theorem filterMap_values_sublist {β γ δ : Type} (o : γ → Option β) (v : γ → δ) :
    ∀ l : List γ, (l.filterMap fun x => (o x).map fun _ => v x).Sublist (l.map v)
  | [] => List.Sublist.slnil
  | x :: l => by
      have ih := filterMap_values_sublist o v l
      cases hx : o x with
      | none =>
          rw [List.filterMap_cons_none (by rw [hx]; rfl)]
          exact ih.cons (v x)
      | some y =>
          rw [List.filterMap_cons_some (by rw [hx]; rfl)]
          exact ih.cons_cons (v x)

/-! ### One gap -/

/-- The distance of two points counted in nanoseconds. -/
def Point.distance (p q : Point α) : ℤ := q.time.position - p.time.position

/-- A whole number of intervals within a gap is never too long for a span, and leads to an instant
of the calendar. -/
theorem exists_step {start stop : Point α} (hs : start.time.isOrdinary)
    (he : stop.time.isOrdinary) {ms : ℤ} (hms : 0 < ms) {j : ℕ}
    (h : j * (ms * 1000000) ≤ start.distance stop) :
    ms * j ≤ Span.maxMillis ∧ ∃ t : Instant,
      (Span.ofMillis? (ms * j)).bind start.time.add? = some t ∧ t.isOrdinary ∧
        t.position = start.time.position + j * (ms * 1000000) := by
  have hstart := (Instant.position_mem_calendar hs).1
  have hstop := (Instant.position_mem_calendar he).2
  have hfirst : Instant.first.position = -8334601228800000000000 := by decide
  have hlast : Instant.last.position = 8210266876799999999999 := by decide
  have h0 : 0 ≤ ms * j := by positivity
  have hcomm : j * (ms * 1000000) = ms * j * 1000000 := by ring
  unfold Point.distance at h
  rw [hcomm] at h ⊢
  have hspan : ms * j ≤ Span.maxMillis := by
    unfold Span.maxMillis
    omega
  have hof : Span.ofMillis? (ms * j) = some (Span.ofMillis (ms * j)) :=
    if_neg (by unfold Span.maxMillis; omega)
  have hnanos : (Span.ofMillis (ms * j)).nanos = ms * j * 1000000 := Span.ofMillis_nanos _
  obtain ⟨t, hadd, ht, hp⟩ := Instant.exists_add?_of_le (d := Span.ofMillis (ms * j)) hs he
    (by rw [hnanos]; omega) (by rw [hnanos]; omega)
  rw [hnanos] at hp
  exact ⟨hspan, t, by rw [hof, Option.bind_some, hadd], ht, hp⟩

/-- Only the end of a gap ends its steps. -/
theorem stepInstant?_eq {start stop : Point α} (hs : start.time.isOrdinary)
    (he : stop.time.isOrdinary) {ms : ℤ} (hms : 0 < ms) {j : ℕ}
    (h : j * (ms * 1000000) ≤ start.distance stop) :
    ∃ t : Instant, t.isOrdinary ∧ t.position = start.time.position + j * (ms * 1000000) ∧
      stepInstant? start.time stop.time ms j =
        if j * (ms * 1000000) < start.distance stop then some t else none := by
  obtain ⟨hspan, t, hadd, ht, hp⟩ := exists_step hs he hms h
  refine ⟨t, ht, hp, ?_⟩
  rw [stepInstant?, min_eq_left hspan, hadd]
  simp only [Instant.lt_iff_position ht he, hp, Point.distance]
  congr 1
  exact propext ⟨fun h => by omega, fun h => by omega⟩

/-- The number of steps of a length that end before a distance does. -/
def stepsBefore (distance step : ℤ) : ℕ := ((distance - 1) / step).toNat

theorem le_stepsBefore_iff {distance step : ℤ} (hd : 0 < distance) (hstep : 0 < step) (j : ℕ) :
    j ≤ stepsBefore distance step ↔ j * step < distance := by
  have hnn : 0 ≤ (distance - 1) / step := Int.ediv_nonneg (by omega) hstep.le
  rw [stepsBefore, Int.le_toNat hnn, Int.le_ediv_iff_mul_le hstep]
  omega

variable [Channel α]

/-- The synthetic points of a gap take their values from equal steps of the way between its ends. -/
theorem bridge_values_sublist (start stop : Point α) (ms : ℤ) :
    let steps := ((stop.time.since start.time).wholeMillis / ms).toNat
    ((bridge start stop ms).map Point.value).Sublist ((List.range' 1 steps).map fun j =>
      start.value.lerp stop.value (Channel.ofNat j / Channel.ofNat steps)) := by
  unfold bridge
  refine (((List.takeWhile_sublist _).filterMap id).map Point.value).trans ?_
  rw [List.filterMap_map, List.map_filterMap]
  simp only [Function.comp_apply, id_eq, Option.map_map, Function.comp_def]
  exact filterMap_values_sublist _ _ _

theorem exists_lerp_of_mem_bridge {start stop q : Point α} {ms : ℤ} (h : q ∈ bridge start stop ms) :
    let steps := ((stop.time.since start.time).wholeMillis / ms).toNat
    ∃ j, 1 ≤ j ∧ j ≤ steps ∧
      q.value = start.value.lerp stop.value (Channel.ofNat j / Channel.ofNat steps) := by
  intro steps
  have hmem := (bridge_values_sublist start stop ms).subset (List.mem_map_of_mem h)
  obtain ⟨j, hj, hvalue⟩ := List.mem_map.mp hmem
  rw [List.mem_range'_1] at hj
  exact ⟨j, hj.1, by omega, hvalue.symm⟩

/-- The synthetic points of a gap stand one interval apart, as many as come before its end, and
their values are spread over the whole intervals of the gap. -/
theorem bridge_eq {start stop : Point α} (hs : start.time.isOrdinary) (he : stop.time.isOrdinary)
    {ms : ℤ} (hms : 0 < ms) (hd : 0 < start.distance stop) :
    (bridge start stop ms).map (fun p => (p.time.position, p.value)) =
        (List.range' 1 (stepsBefore (start.distance stop) (ms * 1000000))).map (fun (j : ℕ) =>
          (start.time.position + j * (ms * 1000000),
            start.value.lerp stop.value
              (Channel.ofNat j / Channel.ofNat (start.distance stop / (ms * 1000000)).toNat))) ∧
      AllOrdinary (bridge start stop ms) := by
  have hw : 0 < ms * 1000000 := by omega
  have hspan : (stop.time.since start.time).nanos = start.distance stop := Instant.since_nanos he hs
  have hsteps : (stop.time.since start.time).wholeMillis / ms =
      start.distance stop / (ms * 1000000) := by
    rw [Span.wholeMillis_of_nonneg (by omega), hspan, Int.mul_comm,
      Int.ediv_ediv_of_nonneg (by omega)]
  have hwhole (j : ℕ) : j ≤ (start.distance stop / (ms * 1000000)).toNat ↔
      j * (ms * 1000000) ≤ start.distance stop := by
    rw [Int.le_toNat (Int.ediv_nonneg hd.le hw.le), Int.le_ediv_iff_mul_le hw]
  unfold bridge
  simp only [hsteps]
  rw [takeWhile_isSome_range' (m := stepsBefore (start.distance stop) (ms * 1000000)),
    List.filterMap_map]
  · apply filterMap_view
    intro j hj
    rw [List.mem_range'_1] at hj
    have hlt := (le_stepsBefore_iff hd hw j).mp (by omega)
    obtain ⟨t, ht, hp, heq⟩ := stepInstant?_eq hs he hms hlt.le
    refine ⟨⟨t, _⟩, ?_, by rw [hp], ht⟩
    simp only [Function.comp_apply, id_eq, heq, if_pos hlt, Option.map_some]
  · rw [hwhole]
    exact ((le_stepsBefore_iff hd hw _).mp le_rfl).le
  · intro j _ hj
    have hlt := (le_stepsBefore_iff hd hw j).mp hj
    obtain ⟨t, -, -, heq⟩ := stepInstant?_eq hs he hms hlt.le
    rw [heq, if_pos hlt]
    rfl
  · intro h
    have hnot := mt (le_stepsBefore_iff hd hw _).mpr (Nat.not_succ_le_self _)
    obtain ⟨t, -, -, heq⟩ := stepInstant?_eq hs he hms ((hwhole _).mp h)
    rw [heq, if_neg hnot]
    rfl

/-- From the start of a gap over the synthetic points to its end, time runs forward, and no two
neighbours are further apart than the interval. -/
theorem bridge_steps {start stop : Point α} (hs : start.time.isOrdinary)
    (he : stop.time.isOrdinary) {ms : ℤ} (hms : 0 < ms) (hd : 0 < start.distance stop) :
    (start :: bridge start stop ms ++ [stop]).IsChain fun p q =>
      p.time < q.time ∧ p.Within ms q := by
  have hw : 0 < ms * 1000000 := by omega
  obtain ⟨hview, hord⟩ := bridge_eq hs he hms hd
  have hpos := congrArg (List.map Prod.fst) hview
  simp only [List.map_map, Function.comp_def] at hpos
  have hall : AllOrdinary (start :: bridge start stop ms ++ [stop]) := by
    intro p hp
    simp only [List.cons_append, List.mem_cons, List.mem_append, List.not_mem_nil, or_false] at hp
    rcases hp with rfl | hp | rfl
    · exact hs
    · exact hord p hp
    · exact he
  refine List.IsChain.imp_of_mem_imp (S := fun p q => p.time < q.time ∧ p.Within ms q)
    (R := fun p q => p.time.position < q.time.position ∧
      q.time.position - p.time.position < (ms + 1) * 1000000)
    (fun p q hp hq h => ⟨(Instant.lt_iff_position (hall p hp) (hall q hq)).mpr h.1,
      (Point.within_iff hms.le (hall p hp) (hall q hq)).mpr ⟨h.1.le, h.2⟩⟩) ?_
  rw [← List.isChain_map (fun p : Point α => p.time.position)
    (R := fun a b => a < b ∧ b - a < (ms + 1) * 1000000)]
  have hsteps : (start :: bridge start stop ms).map (fun p => p.time.position) =
      (List.range (stepsBefore (start.distance stop) (ms * 1000000) + 1)).map
        (fun (j : ℕ) => start.time.position + j * (ms * 1000000)) := by
    rw [List.range_eq_range', List.range'_succ, List.map_cons, List.map_cons, hpos]
    simp
  rw [List.map_append, hsteps, List.isChain_append]
  refine ⟨?_, List.isChain_singleton _, ?_⟩
  · rw [List.isChain_map, List.isChain_range]
    intro j _
    have hnext : ((j.succ : ℕ) : ℤ) * (ms * 1000000) = j * (ms * 1000000) + ms * 1000000 := by
      push_cast
      ring
    constructor <;> omega
  · intro x hx y hy
    rw [List.range_succ, List.map_append, List.map_singleton, List.getLast?_concat,
      Option.mem_some_iff] at hx
    rw [List.map_singleton, List.head?_cons, Option.mem_some_iff] at hy
    have hlt := (le_stepsBefore_iff hd hw _).mp le_rfl
    have hge := mt (le_stepsBefore_iff hd hw _).mpr (Nat.not_succ_le_self _)
    generalize stepsBefore (start.distance stop) (ms * 1000000) = n at hx hlt hge
    have hnext : ((n.succ : ℕ) : ℤ) * (ms * 1000000) = n * (ms * 1000000) + ms * 1000000 := by
      push_cast
      ring
    unfold Point.distance at hlt hge
    constructor <;> omega

theorem gapPoints_cases {start stop : Point α} (hs : start.time.isOrdinary)
    (he : stop.time.isOrdinary) {ms : ℤ} (hms : 0 < ms) :
    (stop.time.since start.time).wholeMillis ≤ ms ∧ gapPoints start stop ms = [] ∨
      0 < start.distance stop ∧ gapPoints start stop ms = bridge start stop ms := by
  unfold gapPoints
  split
  case isTrue hgap =>
    have hspan : (stop.time.since start.time).nanos = start.distance stop :=
      Instant.since_nanos he hs
    have hle := mt (Span.wholeMillis_le_iff hms.le).mpr (not_le.mpr hgap)
    exact Or.inr ⟨by omega, rfl⟩
  case isFalse hgap => exact Or.inl ⟨not_lt.mp hgap, rfl⟩

theorem gapPoints_within {start stop : Point α} (hs : start.time.isOrdinary)
    (he : stop.time.isOrdinary) {ms : ℤ} (hms : 0 < ms) (h : start.NotLater stop) :
    (start :: gapPoints start stop ms ++ [stop]).IsChain (Point.Within ms) := by
  rcases gapPoints_cases hs he hms with ⟨hgap, hnil⟩ | ⟨hd, hbridge⟩
  · rw [hnil]
    exact List.isChain_pair.mpr ⟨h, hgap⟩
  · rw [hbridge]
    exact (bridge_steps hs he hms hd).imp fun _ _ hstep => hstep.2

theorem gapPoints_ordinary {start stop : Point α} (hs : start.time.isOrdinary)
    (he : stop.time.isOrdinary) {ms : ℤ} (hms : 0 < ms) :
    AllOrdinary (gapPoints start stop ms) := by
  rcases gapPoints_cases hs he hms with ⟨-, hnil⟩ | ⟨hd, hbridge⟩
  · rw [hnil]
    exact List.forall_mem_nil _
  · rw [hbridge]
    exact (bridge_eq hs he hms hd).2

theorem gapPoints_forward {start stop : Point α} (hs : start.time.isOrdinary)
    (he : stop.time.isOrdinary) {ms : ℤ} (hms : 0 < ms) (h : start.time < stop.time) :
    (start :: gapPoints start stop ms ++ [stop]).IsChain fun p q => p.time < q.time := by
  rcases gapPoints_cases hs he hms with ⟨-, hnil⟩ | ⟨hd, hbridge⟩
  · rw [hnil]
    exact List.isChain_pair.mpr h
  · rw [hbridge]
    exact (bridge_steps hs he hms hd).imp fun _ _ hstep => hstep.1

theorem forall_mem_gapPoints {Q : Point α → Prop} {start stop : Point α} {ms : ℤ}
    (h : ∀ q ∈ bridge start stop ms, Q q) : ∀ q ∈ gapPoints start stop ms, Q q := by
  unfold gapPoints
  split
  · exact h
  · exact List.forall_mem_nil _

/-! ### The whole series -/

theorem fillGaps_of_nonpos {interval : Span} (h : interval.wholeMillis ≤ 0)
    (points : List (Point α)) : fillGaps points interval = points := if_pos h

theorem fillGaps_nil (interval : Span) : fillGaps ([] : List (Point α)) interval = [] :=
  ite_self []

theorem fillGaps_cons {interval : Span} (h : 0 < interval.wholeMillis) (p : Point α)
    (ps : List (Point α)) :
    fillGaps (p :: ps) interval = p :: fillAfter interval.wholeMillis p ps :=
  if_neg (not_le.mpr h)

theorem fillGaps_cases (points : List (Point α)) (interval : Span) :
    fillGaps points interval = points ∨ ∃ p ps, points = p :: ps ∧ 0 < interval.wholeMillis ∧
      fillGaps points interval = p :: fillAfter interval.wholeMillis p ps := by
  by_cases hms : 0 < interval.wholeMillis
  · cases points with
    | nil => exact Or.inl (fillGaps_nil interval)
    | cons p ps => exact Or.inr ⟨p, ps, rfl, hms, fillGaps_cons hms p ps⟩
  · exact Or.inl (fillGaps_of_nonpos (not_lt.mp hms) points)

theorem sublist_fillAfter (ms : ℤ) : ∀ (points : List (Point α)) (start : Point α),
    points.Sublist (fillAfter ms start points)
  | [], _ => List.Sublist.slnil
  | p :: ps, _ => ((sublist_fillAfter ms ps p).cons_cons p).trans (List.sublist_append_right _ _)

theorem sublist_fillGaps (points : List (Point α)) (interval : Span) :
    points.Sublist (fillGaps points interval) := by
  rcases fillGaps_cases points interval with h | ⟨p, ps, rfl, -, h⟩ <;> rw [h]
  exact (sublist_fillAfter _ ps p).cons_cons p

/-- What holds of neighbours in every gap holds of neighbours in the filled series. -/
theorem fillAfter_isChain {R : Point α → Point α → Prop} {ms : ℤ} :
    ∀ {points : List (Point α)} {start : Point α},
      (start :: points).IsChain (fun p q => (p :: gapPoints p q ms ++ [q]).IsChain R) →
        (start :: fillAfter ms start points).IsChain R
  | [], _, _ => List.isChain_singleton _
  | _ :: _, _, h => by
      obtain ⟨hgap, hrest⟩ := List.isChain_cons_cons.mp h
      exact List.isChain_cons_split.mpr ⟨hgap, fillAfter_isChain hrest⟩

theorem forall_mem_fillAfter {Q : Point α → Prop} {ms : ℤ}
    (hgap : ∀ p q, Q p → Q q → ∀ r ∈ gapPoints p q ms, Q r) :
    ∀ {points : List (Point α)} {start : Point α}, (∀ p ∈ start :: points, Q p) →
      ∀ q ∈ fillAfter ms start points, Q q
  | [], _, _ => List.forall_mem_nil _
  | p :: ps, start, h => by
      obtain ⟨hstart, hrest⟩ := List.forall_mem_cons.mp h
      have hp := hrest p List.mem_cons_self
      refine List.forall_mem_append.mpr ⟨hgap start p hstart hp, ?_⟩
      exact List.forall_mem_cons.mpr ⟨hp, forall_mem_fillAfter hgap hrest⟩

/-- What holds of the points of a series, and with any two points of those between them, holds of
the filled series. -/
theorem forall_mem_fillGaps {Q : Point α → Prop} {interval : Span}
    (hgap : 0 < interval.wholeMillis →
      ∀ p q, Q p → Q q → ∀ r ∈ gapPoints p q interval.wholeMillis, Q r)
    {points : List (Point α)} (h : ∀ p ∈ points, Q p) : ∀ q ∈ fillGaps points interval, Q q := by
  rcases fillGaps_cases points interval with hfill | ⟨p, ps, rfl, hms, hfill⟩ <;> rw [hfill]
  · exact h
  · exact List.forall_mem_cons.mpr
      ⟨h p List.mem_cons_self, forall_mem_fillAfter (hgap hms) h⟩

/-- **No gap is left.**  Neighbours of a filled series are at most one interval apart. -/
theorem fillGaps_within {points : List (Point α)} (hall : AllOrdinary points)
    (hord : Ordered points) {interval : Span} (hpos : 0 < interval.wholeMillis) :
    (fillGaps points interval).IsChain (Point.Within interval.wholeMillis) ∧
      AllOrdinary (fillGaps points interval) := by
  refine ⟨?_, forall_mem_fillGaps (fun hms p q hp hq => gapPoints_ordinary hp hq hms) hall⟩
  cases points with
  | nil =>
      rw [fillGaps_nil]
      exact List.isChain_nil
  | cons p ps =>
      rw [fillGaps_cons hpos]
      refine fillAfter_isChain (hord.isChain_of_mem fun q hq r hr hle => ?_)
      exact gapPoints_within (hall q hq) (hall r hr) hpos hle

theorem head?_fillGaps (points : List (Point α)) (interval : Span) :
    (fillGaps points interval).head? = points.head? := by
  rcases fillGaps_cases points interval with h | ⟨p, ps, rfl, -, h⟩ <;> rw [h]
  rfl

theorem le_of_mem_fillGaps {points : List (Point α)} (hall : AllOrdinary points)
    (hord : Ordered points) {interval : Span} (hpos : 0 < interval.wholeMillis) {start : Instant}
    (hstart : ∀ p ∈ points, start ≤ p.time) : ∀ q ∈ fillGaps points interval, start ≤ q.time := by
  have hchain := (fillGaps_within hall hord hpos).1
  have hhead := head?_fillGaps points interval
  cases hfill : fillGaps points interval with
  | nil => simp
  | cons f fs =>
      rw [hfill] at hchain hhead
      have hf : start ≤ f.time := hstart f (List.mem_of_head? hhead.symm)
      intro q hq
      rcases List.mem_cons.mp hq with rfl | hq
      · exact hf
      · exact Instant.le_trans hf ((List.pairwise_cons.mp (ordered_of_within hchain)).1 q hq)

end RouteTraffic
