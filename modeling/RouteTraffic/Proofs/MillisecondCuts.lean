import RouteTraffic.Dashboard
import RouteTraffic.Proofs.BucketStarts

/-! # Instants cut to the millisecond

Cutting an instant to the millisecond sets its nanoseconds to whole milliseconds
(`truncateToMillis_eq_getD`).  This leads out of the calendar for one leap second alone, the one past
the end of the calendar, which stays as it is (`withNanos?_truncate`).  Every other instant is
rounded down in its second, and all instants keep their order (`truncateToMillis_mono`).

In no leap second, the number of milliseconds since the epoch and a bucket of one millisecond lead to
the same instant (`ofEpochMillis?_epochMillis`, `bucketStart_eq_truncateToMillis`). -/

namespace RouteTraffic

namespace Instant
variable {t u : Instant}

/-! ### Order -/

theorem truncateToMillis_le (t : Instant) : t.truncateToMillis ≤ t := by
  rw [le_iff, truncateToMillis_seconds, truncateToMillis_nanos]
  split_ifs <;> omega

theorem IsPastEnd.of_le (ht : t.IsPastEnd) (h : t ≤ u) : u.IsPastEnd := by
  obtain ⟨hseconds, hnanos⟩ := ht
  have hlast := u.inCalendar.2
  simp only [IsPastEnd, isOrdinary, decide_eq_false_iff_not] at hnanos ⊢
  rw [le_iff] at h
  omega

theorem truncateToMillis_mono (h : t ≤ u) : t.truncateToMillis ≤ u.truncateToMillis := by
  by_cases hu : u.IsPastEnd
  · rw [truncateToMillis_of_pastEnd hu]
    exact le_trans (truncateToMillis_le t) h
  · have ht : ¬t.IsPastEnd := fun ht => hu (ht.of_le h)
    rw [le_iff] at h ⊢
    rw [truncateToMillis_seconds, truncateToMillis_seconds, truncateToMillis_nanos,
      truncateToMillis_nanos, if_neg ht, if_neg hu]
    omega

/-! ### Other nanoseconds in the same second -/

/-- The instant in the same second with other nanoseconds, if it is not past the end of the
calendar. -/
def withNanos? (t : Instant) (nanos : ℕ) : Option Instant :=
  (of? t.seconds nanos).filter (· ≤ last)

theorem withNanos?_eq_some_iff {n : ℕ} :
    t.withNanos? n = some u ↔ u.seconds = t.seconds ∧ u.nanos = n ∧ u ≤ last := by
  rw [withNanos?, Option.filter_eq_some_iff, of?_eq_some_iff, decide_eq_true_eq, and_assoc]

theorem not_le_last_iff : ¬t ≤ last ↔ t.IsPastEnd := by
  have hlast := t.inCalendar.2
  simp only [IsPastEnd, isOrdinary, decide_eq_false_iff_not, le_iff, last]
  omega

theorem withNanos?_truncate (t : Instant) :
    t.withNanos? (t.nanos - t.nanos % 1000000) =
      if t.IsPastEnd then none else some t.truncateToMillis := by
  split_ifs with hend
  · refine Option.eq_none_iff_forall_ne_some.mpr fun u hu => ?_
    obtain ⟨hseconds, hnanos, hle⟩ := withNanos?_eq_some_iff.mp hu
    refine not_le_last_iff.mpr ?_ hle
    simp only [IsPastEnd, isOrdinary, decide_eq_false_iff_not] at hend ⊢
    omega
  · refine withNanos?_eq_some_iff.mpr ⟨t.truncateToMillis_seconds, ?_, ?_⟩
    · rw [truncateToMillis_nanos, if_neg hend]
    · by_contra hlast
      exact hend (isPastEnd_truncateToMillis.mp (not_le_last_iff.mp hlast))

/-- Cutting sets the nanoseconds, and leaves the instant as it is where that is not possible. -/
theorem truncateToMillis_eq_getD (t : Instant) :
    t.truncateToMillis = (t.withNanos? (t.nanos - t.nanos % 1000000)).getD t := by
  rw [withNanos?_truncate]
  split_ifs with hend
  · exact truncateToMillis_of_pastEnd hend
  · rfl

/-! ### Milliseconds since the epoch -/

/-- An ordinary instant is cut where its milliseconds since the epoch are. -/
theorem ofEpochMillis?_epochMillis (h : t.isOrdinary) :
    ofEpochMillis? t.epochMillis = some t.truncateToMillis := by
  have hend : ¬t.IsPastEnd := fun hend => by simp [hend.2] at h
  refine ofEpochMillis?_eq_some_iff.mpr ⟨truncateToMillis_isOrdinary h, ?_⟩
  rw [position, truncateToMillis_seconds, truncateToMillis_nanos, if_neg hend, epochMillis]
  omega

theorem bucketStart_eq_truncateToMillis {bucket : Span} (hbucket : bucket.wholeMillis = 1)
    (h : t.isOrdinary) : bucketStart bucket t = t.truncateToMillis := by
  have hin := InBucket.of_remainder (hbucket ▸ one_pos : 0 < bucket.wholeMillis) t
  rw [bucketStart_eq hin, hbucket, Int.emod_one, sub_zero, ofEpochMillis?_epochMillis h,
    Option.getD_some]

/-- **Instants cut to the millisecond.**  Nanoseconds are set, which fails past the end of the
calendar and nowhere else.  But for that leap second an instant is rounded down to a whole
millisecond of its second.  Cutting twice is cutting once, and no later instant is cut to an earlier
one.  An ordinary instant is cut to the instant at its milliseconds since the epoch, and to the start
of its bucket of one millisecond. -/
theorem truncateToMillis_rounds_down (t : Instant) :
    (t.truncateToMillis = (t.withNanos? (t.nanos - t.nanos % 1000000)).getD t ∧
        (t.withNanos? (t.nanos - t.nanos % 1000000) = none ↔ t.IsPastEnd)) ∧
      (¬t.IsPastEnd → t.truncateToMillis.seconds = t.seconds ∧
        t.truncateToMillis.IsWholeMillis ∧ t.truncateToMillis.nanos ≤ t.nanos ∧
          t.nanos < t.truncateToMillis.nanos + 1000000) ∧
      t.truncateToMillis.truncateToMillis = t.truncateToMillis ∧
      (∀ u, t ≤ u → t.truncateToMillis ≤ u.truncateToMillis) ∧
      (t.isOrdinary → timestampOfMillis t.epochMillis = .ok t.truncateToMillis ∧
        ∀ bucket : Span, bucket.wholeMillis = 1 → bucketStart bucket t = t.truncateToMillis) := by
  refine ⟨⟨truncateToMillis_eq_getD t, ?_⟩, fun hend => ?_, truncateToMillis_truncateToMillis t,
    fun u h => truncateToMillis_mono h, fun h => ⟨?_, fun bucket hbucket => ?_⟩⟩
  · rw [withNanos?_truncate]
    split_ifs with hend <;> simp [hend]
  · rw [IsWholeMillis, truncateToMillis_seconds, truncateToMillis_nanos, if_neg hend]
    omega
  · rw [timestampOfMillis, ofEpochMillis?_epochMillis h]
  · exact bucketStart_eq_truncateToMillis hbucket h

/-- The last nanosecond before the epoch, and the last one of a leap second there. -/
theorem truncateToMillis_rounds_down_beforeEpoch :
    let t : Instant := ⟨-1, 999999999, by decide, by decide⟩
    let u : Instant := ⟨-1, 1999999999, by decide, by decide⟩
    t.isOrdinary ∧ t ≤ u ∧ ¬u.IsPastEnd ∧ u.truncateToMillis.nanos = 1999000000 ∧
      u.nanos < u.truncateToMillis.nanos + 1000000 ∧
      t.truncateToMillis ≤ u.truncateToMillis ∧ t.epochMillis = -1 ∧
      timestampOfMillis (-1) = .ok t.truncateToMillis ∧
      bucketStart (.ofMillis 1) t = t.truncateToMillis := by
  intro t u
  have ht : t.isOrdinary := by decide
  have htu : t ≤ u := by decide
  have hu : ¬u.IsPastEnd := by decide
  have hepoch : t.epochMillis = -1 := by decide
  obtain ⟨-, -, -, hmono, hagree⟩ := truncateToMillis_rounds_down t
  obtain ⟨-, hrounds, -⟩ := truncateToMillis_rounds_down u
  obtain ⟨hmillis, hbucket⟩ := hagree ht
  rw [hepoch] at hmillis
  exact ⟨ht, htu, hu, by decide, (hrounds hu).2.2.2, hmono u htu, hepoch, hmillis,
    hbucket (.ofMillis 1) (by decide)⟩

/-- In the leap second past the end of the calendar no other nanoseconds can be set, so that the
digits below the millisecond stay. -/
theorem truncateToMillis_keeps_digits :
    let t : Instant := ⟨Calendar.lastSecond, 1123456789, by decide, by decide⟩
    t.withNanos? (t.nanos - t.nanos % 1000000) = none ∧ t.truncateToMillis = t ∧
      ¬t.IsWholeMillis := by
  decide

end Instant

end RouteTraffic
