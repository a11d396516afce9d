import RouteTraffic.Proofs.BoundedCounts
import RouteTraffic.Proofs.RecentSeries
import RouteTraffic.Proofs.Reports
import RouteTraffic.Proofs.RouteSummary

/-! # The counts of a chart

What is drawn of valid counts (`Chart.build_counts`).  Merging, filling and averaging never lead
below zero, however large the counts are.  They lead out of the range of doubles only where a sum
does: the sum of the samples of one millisecond, of the values of one average, or of the totals of
the routes.  Where powers of two bound the counts and their numbers, the exponents add up, and a
number of counts above `2 ^ 53` adds no more than one of `2 ^ 53`.

Both results are about a property of the doubles that are given and one of the doubles that are
drawn, and come from the same lemma (`recentSeries_each`). -/

namespace RouteTraffic

open Decimal

/-! ### Both channels -/

theorem Traffic.lerp_each {P : Float → Prop} {start stop : Traffic Float} {fraction : Float}
    (hlerp : ∀ x y, P x → P y → P (x + (y - x) * fraction)) (hstart : start.Each P)
    (hstop : stop.Each P) : (start.lerp stop fraction).Each P :=
  ⟨hlerp _ _ hstart.1 hstop.1, hlerp _ _ hstart.2 hstop.2⟩

theorem Traffic.divideBy_each {P : Float → Prop} {t : Traffic Float} {n : ℕ}
    (hdivide : ∀ x, P x → P (x / ofNat n)) (h : t.Each P) : (t.divideBy n).Each P :=
  ⟨hdivide _ h.1, hdivide _ h.2⟩

/-- A sum keeps a property that may depend on how many values are in it. -/
theorem Traffic.foldl_each {P : Float → Prop} {Q : ℕ → Float → Prop} {limit : ℕ}
    (hadd : ∀ k x y, k < limit → Q k x → P y → Q (k + 1) (x + y)) :
    ∀ {values : List (Traffic Float)} {start : Traffic Float} {k : ℕ}, k + values.length ≤ limit →
      start.Each (Q k) → (∀ v ∈ values, v.Each P) →
        (values.foldl (· + ·) start).Each (Q (k + values.length))
  | [], _, _, _, hstart, _ => hstart
  | v :: values, start, k, hlimit, hstart, hvalues => by
      rw [List.length_cons] at hlimit ⊢
      obtain ⟨hv, hrest⟩ := List.forall_mem_cons.mp hvalues
      have hnext : (start + v).Each (Q (k + 1)) :=
        ⟨hadd k _ _ (by omega) hstart.1 hv.1, hadd k _ _ (by omega) hstart.2 hv.2⟩
      have ih : (values.foldl (· + ·) (start + v)).Each (Q (k + 1 + values.length)) :=
        Traffic.foldl_each hadd (by omega) hnext hrest
      rwa [Nat.add_assoc, Nat.add_comm 1] at ih

/-- Counts up to `2 ^ b`, at most `2 ^ i` of them, add up to no more than `2 ^ (b + i)`. -/
theorem Traffic.foldl_upTo {b i k : ℕ} {values : List (Traffic Float)} {start : Traffic Float}
    (hb : b + min i 53 ≤ 1023) (hlength : k + values.length ≤ 2 ^ i)
    (hstart : start.Each (UpTo (sumBound b k)))
    (hvalues : ∀ v ∈ values, v.Each (UpTo (2 ^ (b : ℤ)))) :
    (values.foldl (· + ·) start).Each (UpTo (2 ^ ((b + min i 53 : ℕ) : ℤ))) := by
  have hadd : ∀ k x y, k < 2 ^ i → UpTo (sumBound b k) x → UpTo (2 ^ (b : ℤ)) y →
      UpTo (sumBound b (k + 1)) (x + y) := by
    intro k x y hk hx hy
    refine hx.addCount hy ((sumBound_le hk).trans_lt ?_)
    exact zpow_lt_zpow_right₀ (by norm_num) (by omega)
  have hsum := Traffic.foldl_each hadd hlength hstart hvalues
  exact hsum.imp fun x hx => hx.mono (sumBound_le hlength)

theorem upTo_zero : UpTo 0 (0 : Float) := ⟨by decide, le_rfl, le_rfl⟩

theorem isUnsigned_zero : IsUnsigned (0 : Float) := isUnsigned_of_ok upTo_zero.ok

theorem Traffic.sum_upTo {b i : ℕ} {values : List (Traffic Float)} (hb : b + min i 53 ≤ 1023)
    (hlength : values.length ≤ 2 ^ i) (hvalues : ∀ v ∈ values, v.Each (UpTo (2 ^ (b : ℤ)))) :
    (Traffic.sum values).Each (UpTo (2 ^ ((b + min i 53 : ℕ) : ℤ))) := by
  have hzero : UpTo (sumBound b 0) (0 : Float) := by
    simpa [sumBound] using upTo_zero
  exact Traffic.foldl_upTo hb (by rwa [Nat.zero_add]) ⟨hzero, hzero⟩ hvalues

theorem Traffic.foldl_unsigned {values : List (Traffic Float)} {start : Traffic Float}
    (hstart : start.Each IsUnsigned) (hvalues : ∀ v ∈ values, v.Each IsUnsigned) :
    (values.foldl (· + ·) start).Each IsUnsigned :=
  Traffic.foldl_each (Q := fun _ => IsUnsigned) (k := 0)
    (fun _ _ _ _ hx hy => hx.add hy) le_rfl hstart hvalues

/-! ### Filled gaps -/

theorem wholeMillis_since_le (t u : Instant) : (t.since u).wholeMillis ≤ 2 ^ 64 := by
  have hcalendar := t.inCalendar
  have hcalendar' := u.inCalendar
  have hnanos := t.nanos_lt
  have hnanos' := u.nanos_lt
  have hfirst : Calendar.firstSecond = -8334601228800 := by decide
  have hlast : Calendar.lastSecond = 8210266876799 := by decide
  rw [Span.wholeMillis_le_iff (by norm_num)]
  unfold Instant.since
  dsimp only
  split_ifs <;> omega

theorem lerp_of_mem_bridge {start stop q : Point Float} {ms : ℤ} (hms : 0 < ms)
    (h : q ∈ bridge start stop ms) :
    ∃ fraction, UpTo 1 fraction ∧ q.value = start.value.lerp stop.value fraction := by
  obtain ⟨j, hone, hj, hvalue⟩ := exists_lerp_of_mem_bridge h
  have hsteps : (stop.time.since start.time).wholeMillis / ms ≤ 2 ^ 64 :=
    Int.ediv_le_of_le_mul hms (by nlinarith [wholeMillis_since_le stop.time start.time])
  exact ⟨_, fraction_upTo (by omega) (by omega) (by omega), hvalue⟩

/-- What a chart shows of counts, by what holds in between two of them and of their averages. -/
theorem recentSeries_each {P R : Float → Prop} {config : SeriesConfig}
    (hlerp : ∀ x y fraction, P x → P y → UpTo 1 fraction → P (x + (y - x) * fraction))
    (haverage : ∀ values : List (Traffic Float), 0 < values.length →
      values.length ≤ max config.smoothing 1 → (∀ v ∈ values, v.Each P) →
        ((Traffic.sum values).divideBy values.length).Each R)
    {points : List (Point Float)} (h : ∀ p ∈ points, p.value.Each P) (now : Instant) :
    ∀ q ∈ recentSeries points now config, q.value.Each R := by
  refine forall_mem_recentSeries (P := (·.Each P)) (R := (·.Each R)) ?_ haverage
    fun p hp => h p (mem_inWindow.mp hp).1
  intro start stop ms hms hstart hstop q hq
  obtain ⟨fraction, hfraction, hvalue⟩ := lerp_of_mem_bridge hms hq
  rw [hvalue]
  exact Traffic.lerp_each (fun x y hx hy => hlerp x y fraction hx hy hfraction) hstart hstop

/-! ### Averages -/

theorem average_unsigned {values : List (Traffic Float)} (hpos : 0 < values.length)
    (h : ∀ v ∈ values, v.Each IsUnsigned) :
    ((Traffic.sum values).divideBy values.length).Each IsUnsigned :=
  Traffic.divideBy_each (fun _ hx => hx.divideBy hpos)
    (Traffic.foldl_unsigned ⟨isUnsigned_zero, isUnsigned_zero⟩ h)

theorem average_upTo {b j : ℕ} (hb : b + min j 53 ≤ 1023) {values : List (Traffic Float)}
    (hpos : 0 < values.length) (hlength : values.length ≤ 2 ^ j)
    (h : ∀ v ∈ values, v.Each (UpTo (2 ^ (b : ℤ)))) :
    ((Traffic.sum values).divideBy values.length).Each (UpTo (2 ^ ((b + min j 53 : ℕ) : ℤ))) :=
  Traffic.divideBy_each (fun _ hx => hx.divideBy hpos) (Traffic.sum_upTo hb hlength h)

/-! ### Selected series -/

section
variable {routes : List Route} {P : Traffic Float → Prop} (h : ∀ r ∈ routes, r.HasCounts P)
include h

theorem samples_hasCounts : ∀ p ∈ routes.flatMap Route.samples, P p.value := by
  intro p hp
  obtain ⟨r, hr, hp⟩ := List.mem_flatMap.mp hp
  unfold Route.samples at hp
  cases hstats : r.stats with
  | none => simp [hstats] at hp
  | some s =>
      rw [hstats] at hp
      exact (h r hr s hstats).2 p hp

theorem totals_hasCounts :
    ∀ t ∈ ((routes.filterMap (·.stats)).filter fun s => !s.isEmpty).map (·.total), P t := by
  intro t ht
  obtain ⟨s, hs, rfl⟩ := List.mem_map.mp ht
  obtain ⟨r, hr, hstats⟩ := List.mem_filterMap.mp (List.mem_filter.mp hs).1
  exact (h r hr s hstats).1

theorem select_route_hasCounts (hzero : P 0) (key : UInt32) :
    P (select routes (.route key)).series.total ∧
      ∀ p ∈ (select routes (.route key)).series.points, P p.value := by
  cases hfound : findRoute? routes key with
  | none =>
      simp only [select, hfound]
      exact ⟨hzero, List.forall_mem_nil _⟩
  | some found =>
      obtain ⟨r, i⟩ := found
      have hr : r ∈ routes := List.mem_of_getElem? (findRoute?_eq_some_iff.mp hfound).1
      cases hstats : r.stats with
      | none =>
          simp only [select, hfound, hstats]
          exact ⟨hzero, List.forall_mem_nil _⟩
      | some s =>
          simp only [select, hfound, hstats]
          exact h r hr s hstats

/-- A selected series has its counts, or the sums of those that are summarised. -/
theorem select_hasCounts {Q R : Traffic Float → Prop} (selection : Selection) (hzero : P 0)
    (hQ : ∀ t, P t → Q t) (hR : ∀ t, P t → R t)
    (hmerge : selection = .all → ∀ t first rest,
      ((routes.flatMap Route.samples).filter fun p => p.time.truncateToMillis = t).map Point.value =
        first :: rest → (∀ v ∈ first :: rest, P v) → Q (rest.foldl (· + ·) first))
    (htotal : selection = .all → ∀ totals : List (Traffic Float), totals.length ≤ routes.length →
      (∀ t ∈ totals, P t) → R (Traffic.sum totals)) :
    R (select routes selection).series.total ∧
      ∀ p ∈ (select routes selection).series.points, Q p.value := by
  cases selection with
  | route key =>
      obtain ⟨ht, hpoints⟩ := select_route_hasCounts h hzero key
      exact ⟨hR _ ht, fun p hp => hQ _ (hpoints p hp)⟩
  | all =>
      constructor
      · refine htotal rfl _ ?_ (totals_hasCounts h)
        rw [List.length_map]
        exact (List.length_filter_le _ _).trans (List.length_filterMap_le _ _)
      · intro q hq
        have hq' : q ∈ mergeByMillis (routes.flatMap Route.samples) := by
          rw [flatMap_samples, ← Series.summary_points]
          exact hq
        obtain ⟨first, rest, hvalues, hsum⟩ := value_of_mem_mergeByMillis hq'
        rw [hsum]
        refine hmerge rfl q.time first rest hvalues fun v hv => ?_
        rw [← hvalues] at hv
        obtain ⟨p, hp, rfl⟩ := List.mem_map.mp hv
        exact samples_hasCounts h p (List.mem_filter.mp hp).1

end

/-! ### The chart -/

theorem ByteSize.format_eq_dash_iff {x : Float} : format x = "-" ↔ ¬ x.isFinite = true := by
  unfold format formatBy
  cases x.isFinite with
  | false => exact iff_of_true rfl nofun
  | true =>
      rw [Bool.not_true, if_neg Bool.false_ne_true]
      refine iff_of_false (fun h => ?_) (fun h => h rfl)
      -- every other text has a blank before the unit
      have hblank : ' ' ∈ "-".toList := by
        rw [← h]
        split_ifs <;> simp
      exact absurd hblank (by decide)

section
variable {routes : List Route} (selection : Selection) (now : Instant) (config : SeriesConfig)

theorem Chart.build_unsigned (h : ∀ r ∈ routes, r.HasCounts (·.Each IsUnsigned)) :
    ∀ p ∈ (build routes selection now config).points, p.value.Each IsUnsigned := by
  have hzero : (0 : Traffic Float).Each IsUnsigned := ⟨isUnsigned_zero, isUnsigned_zero⟩
  obtain ⟨-, hpoints⟩ := select_hasCounts h selection (Q := (·.Each IsUnsigned))
    (R := (·.Each IsUnsigned)) hzero (fun _ => id) (fun _ => id)
    (fun _ _ first rest _ hvalues => by
      obtain ⟨hfirst, hrest⟩ := List.forall_mem_cons.mp hvalues
      exact Traffic.foldl_unsigned hfirst hrest)
    (fun _ _ _ htotals => Traffic.foldl_unsigned hzero htotals)
  exact recentSeries_each (fun _ _ _ hx hy hfraction => hx.lerp hy hfraction)
    (fun _ hpos _ hvalues => average_unsigned hpos hvalues) hpoints now

/-- Where the exponents add up to no more than that of the range, all counts stay in it. -/
theorem Chart.build_upTo {b i j k : ℕ} (hpoint : b + min i 53 + min j 53 ≤ 1023)
    (htotal : b + min k 53 ≤ 1023)
    (h : ∀ r ∈ routes, r.HasCounts (·.Each (UpTo (2 ^ (b : ℤ)))))
    (hall : selection = .all → routes.length ≤ 2 ^ k ∧ ∀ t : Instant,
      (routes.flatMap Route.samples).countP (fun p => p.time.truncateToMillis = t) ≤ 2 ^ i)
    (hsmoothing : config.smoothing ≤ 2 ^ j) :
    (select routes selection).series.total.Each (UpTo (2 ^ ((b + min k 53 : ℕ) : ℤ))) ∧
      ∀ p ∈ (build routes selection now config).points,
        p.value.Each (UpTo (2 ^ ((b + min i 53 + min j 53 : ℕ) : ℤ))) := by
  have hzero : UpTo (2 ^ (b : ℤ)) (0 : Float) := upTo_zero.mono (two_zpow_pos _).le
  have hmono (n : ℕ) (x : Float) (hx : UpTo (2 ^ (b : ℤ)) x) : UpTo (2 ^ ((b + n : ℕ) : ℤ)) x :=
    hx.mono (zpow_le_zpow_right₀ (by norm_num) (by omega))
  obtain ⟨hsum, hpoints⟩ := select_hasCounts h selection
    (Q := (·.Each (UpTo (2 ^ ((b + min i 53 : ℕ) : ℤ)))))
    (R := (·.Each (UpTo (2 ^ ((b + min k 53 : ℕ) : ℤ)))))
    ⟨hzero, hzero⟩ (fun _ ht => ht.imp (hmono _)) (fun _ ht => ht.imp (hmono _))
    (fun hsel t first rest hvalues hcounts => by
      obtain ⟨hfirst, hrest⟩ := List.forall_mem_cons.mp hcounts
      have hlength : 1 + rest.length ≤ 2 ^ i := by
        have hmet := (hall hsel).2 t
        rw [List.countP_eq_length_filter, ← List.length_map (f := Point.value), hvalues,
          List.length_cons] at hmet
        omega
      refine Traffic.foldl_upTo (by omega) hlength (hfirst.imp fun x hx => ?_) hrest
      simpa [sumBound] using hx)
    (fun hsel totals hlength htotals =>
      Traffic.sum_upTo htotal (hlength.trans (hall hsel).1) htotals)
  refine ⟨hsum, recentSeries_each (fun x y f hx hy hf => hx.lerp (by omega) hy hf)
    (fun values hpos hlength hvalues => average_upTo hpoint hpos (hlength.trans ?_) hvalues)
    hpoints now⟩
  exact max_le hsmoothing Nat.one_le_two_pow

/-- **Valid counts on a chart.**  Nothing that is drawn of valid counts is below zero, and what is
finite of it is valid.  It is finite throughout, and so are the totals, where counts up to `2 ^ b`,
at most `2 ^ i` of them in one millisecond and `2 ^ j` in one average, and the totals of at most
`2 ^ k` routes keep their sums below `2 ^ 1024`. -/
theorem Chart.build_counts
    (hvalid : ∀ r ∈ routes, r.HasCounts fun t => t.isValid = true) :
    (∀ p ∈ (build routes selection now config).points,
      p.value.Each fun x => ¬ x < 0 ∧ (x.isFinite = true → Traffic.isValid.ok x = true)) ∧
    ∀ b i j k : ℕ, b + min i 53 + min j 53 ≤ 1023 → b + min k 53 ≤ 1023 →
      (∀ r ∈ routes, r.HasCounts (·.Each fun x => value x ≤ 2 ^ b)) →
      (selection = .all → routes.length ≤ 2 ^ k ∧ ∀ t : Instant,
        (routes.flatMap Route.samples).countP (fun p => p.time.truncateToMillis = t) ≤ 2 ^ i) →
      config.smoothing ≤ 2 ^ j →
        (∀ p ∈ (build routes selection now config).points, p.value.isValid = true) ∧
          (build routes selection now config).totalSent ≠ "-" ∧
          (build routes selection now config).totalReceived ≠ "-" := by
  constructor
  · have hunsigned : ∀ r ∈ routes, r.HasCounts (·.Each IsUnsigned) := fun r hr =>
      (hvalid r hr).imp fun t ht => (Traffic.isValid_iff.mp ht).imp fun x => isUnsigned_of_ok
    intro p hp
    exact (Chart.build_unsigned selection now config hunsigned p hp).imp fun x hx =>
      ⟨hx.not_lt_zero, fun hfinite => ok_iff.mpr ⟨hfinite, hx.exactValue_nonneg⟩⟩
  · intro b i j k hpoint htotal hbound hall hsmoothing
    have hcounts : ∀ r ∈ routes, r.HasCounts (·.Each (UpTo (2 ^ (b : ℤ)))) := by
      intro r hr
      refine ((hvalid r hr).and (hbound r hr)).imp fun t ⟨ht, hle⟩ => ?_
      obtain ⟨hsent, hreceived⟩ := Traffic.isValid_iff.mp ht
      simp only [Traffic.Each, ← zpow_natCast] at hle
      exact ⟨(upTo_of_ok hsent).mono hle.1, (upTo_of_ok hreceived).mono hle.2⟩
    obtain ⟨hsum, hpoints⟩ :=
      Chart.build_upTo selection now config hpoint htotal hcounts hall hsmoothing
    refine ⟨fun p hp => Traffic.isValid_iff.mpr ((hpoints p hp).imp fun x hx => hx.ok), ?_, ?_⟩
    · exact mt ByteSize.format_eq_dash_iff.mp (not_not.mpr hsum.1.isFinite)
    · exact mt ByteSize.format_eq_dash_iff.mp (not_not.mpr hsum.2.isFinite)

end

/-- Two routes at the same millisecond, and a gap of three minutes down to a small count. -/
theorem Chart.build_counts_downwards :
    let time (s : ℤ) : Instant := (Instant.of? s 0).getD .first
    let large : Traffic Float := ⟨ofNat (2 ^ 1000), ofNat (2 ^ 1000)⟩
    let web : Route := { stats := some ⟨[⟨time 0, large⟩, ⟨time 180, ⟨ofNat 1, 0⟩⟩], large⟩ }
    let ssh : Route := { stats := some ⟨[⟨time 0, large⟩], large⟩ }
    let chart := build [web, ssh] .all (time 180) .standard
    (∀ r ∈ [web, ssh], r.HasCounts fun t => t.isValid = true) ∧
      (∀ r ∈ [web, ssh], r.HasCounts (·.Each fun x => value x ≤ 2 ^ 1000)) ∧
      chart.points.length = 4 ∧ (∀ p ∈ chart.points, p.value.isValid = true) ∧
      chart.totalSent ≠ "-" ∧ chart.totalReceived ≠ "-" := by
  intro time large web ssh chart
  have hvalid : ∀ r ∈ [web, ssh], r.HasCounts fun t => t.isValid = true := by decide +kernel
  have hbound : ∀ r ∈ [web, ssh], r.HasCounts (·.Each fun x => value x ≤ 2 ^ 1000) := by
    decide +kernel
  obtain ⟨-, hrange⟩ := Chart.build_counts .all (time 180) .standard hvalid
  exact ⟨hvalid, hbound, by decide +kernel, hrange 1000 2 2 1 (by decide) (by decide) hbound
    (fun _ => ⟨by decide, fun t => List.countP_le_length.trans (by decide)⟩) (by decide)⟩

/-- Two counts of half the range are too much, whether for an average or for the total. -/
theorem Chart.build_counts_overflow :
    let time (s : ℤ) : Instant := (Instant.of? s 0).getD .first
    let half : Traffic Float := ⟨ofNat (2 ^ 1023), 0⟩
    let web : Route := { stats := some ⟨[⟨time 0, half⟩, ⟨time 60, half⟩], half⟩ }
    let ssh : Route := { stats := some ⟨[⟨time 60, 0⟩], half⟩ }
    (∀ r ∈ [web, ssh], r.HasCounts fun t => t.isValid = true) ∧
      0 < SeriesConfig.standard.interval.wholeMillis ∧
      (build [web, ssh] (.route 0) (time 60) .standard).points.map (·.value.isValid) =
        [true, false] ∧
      (build [web, ssh] .all (time 60) .standard).totalSent = "-" := by
  decide +kernel

end RouteTraffic
