import RouteTraffic.Proofs.Timeline
import RouteTraffic.Recorder
import RouteTraffic.Text.Digits

/-! # Starts of buckets

Every instant lies in one bucket of a width, the one that starts at the multiple of the width at or
before it (`InBucket`).  An instant is moved to that multiple if the calendar has it, and otherwise
stays where it is (`bucketStart_of_contains`, `bucketStart_of_not_contains`).

Starts of buckets keep the order of ordinary instants (`bucketStart_mono`), also at the beginning of
the calendar, where an instant whose bucket starts before the calendar stands for itself: every
bucket that starts in the calendar starts after that instant.

A start can be computed in words of 64 bits for every width that such a word holds
(`bucketStart64?_eq`), since a multiple that is far below zero is not far below the number, or else
one width below zero (`min_le_self_sub_emod`). -/

namespace RouteTraffic

/-! ### Buckets of whole milliseconds -/

/-- The instant lies in the bucket that starts at these milliseconds since the epoch, a multiple of
the width. -/
structure InBucket (width ms : ℤ) (t : Instant) : Prop where
  dvd : width ∣ ms
  le : ms * 1000000 ≤ t.position
  lt : t.position < (ms + width) * 1000000

namespace InBucket

variable {width m n : ℤ} {t u : Instant}

theorem of_remainder (hwidth : 0 < width) (t : Instant) :
    InBucket width (t.epochMillis - t.epochMillis % width) t := by
  have hnonneg := Int.emod_nonneg t.epochMillis hwidth.ne'
  have hlt := Int.emod_lt_of_pos t.epochMillis hwidth
  have hmillis : t.epochMillis * 1000000 ≤ t.position ∧
      t.position < (t.epochMillis + 1) * 1000000 := by
    unfold Instant.epochMillis Instant.position
    omega
  exact ⟨Int.dvd_self_sub_emod, by omega, by omega⟩

/-- Of two buckets the later one starts where the earlier one ends, or after it. -/
theorem add_width_le (ht : InBucket width m t) (hu : InBucket width n u) (h : m < n) :
    m + width ≤ n := by
  have := Int.le_of_dvd (sub_pos.mpr h) (Int.dvd_sub hu.dvd ht.dvd)
  omega

theorem mono (ht : InBucket width m t) (hu : InBucket width n u) (h : t.position ≤ u.position) :
    m ≤ n := by
  by_contra hnot
  have := add_width_le hu ht (not_le.mp hnot)
  have := hu.lt
  have := ht.le
  omega

theorem width_pos (h : InBucket width m t) : 0 < width := by
  have := h.le.trans_lt h.lt
  omega

theorem unique (hm : InBucket width m t) (hn : InBucket width n t) : m = n :=
  le_antisymm (hm.mono hn le_rfl) (hn.mono hm le_rfl)

end InBucket

/-! ### Starts of buckets -/

section starts
variable {bucket : Span} {t u : Instant}

theorem bucketStart_of_nonpos (h : bucket.wholeMillis ≤ 0) (t : Instant) :
    bucketStart bucket t = t := if_pos h

/-- A bucket starts at its milliseconds, and where these are outside the calendar, at the instant
itself. -/
theorem bucketStart_eq {ms : ℤ} (h : InBucket bucket.wholeMillis ms t) :
    bucketStart bucket t = (Instant.ofEpochMillis? ms).getD t := by
  rw [h.unique (InBucket.of_remainder h.width_pos t)]
  exact if_neg (not_le.mpr h.width_pos)

theorem bucketStart_mono (bucket : Span) (ht : t.isOrdinary) (hu : u.isOrdinary) (h : t ≤ u) :
    bucketStart bucket t ≤ bucketStart bucket u := by
  rcases le_or_gt bucket.wholeMillis 0 with hnone | hwidth
  · rw [bucketStart_of_nonpos hnone, bucketStart_of_nonpos hnone]
    exact h
  · have hposition := (Instant.le_iff_position ht hu).mp h
    have htm := InBucket.of_remainder hwidth t
    have hun := InBucket.of_remainder hwidth u
    generalize t.epochMillis - t.epochMillis % bucket.wholeMillis = m at htm
    generalize u.epochMillis - u.epochMillis % bucket.wholeMillis = n at hun
    have hmn := htm.mono hun hposition
    rw [bucketStart_eq htm, bucketStart_eq hun]
    cases hm : Instant.ofEpochMillis? m with
    | some a =>
        obtain ⟨ha, hap⟩ := Instant.ofEpochMillis?_eq_some_iff.mp hm
        cases hn : Instant.ofEpochMillis? n with
        | some b =>
            obtain ⟨hb, hbp⟩ := Instant.ofEpochMillis?_eq_some_iff.mp hn
            exact (Instant.le_iff_position ha hb).mpr (by omega)
        | none =>
            have := htm.le
            exact (Instant.le_iff_position ha hu).mpr (by omega)
    | none =>
        cases hn : Instant.ofEpochMillis? n with
        | some b =>
            -- the bucket of `u` is a later one, and starts after `t`
            obtain ⟨hb, hbp⟩ := Instant.ofEpochMillis?_eq_some_iff.mp hn
            have hne : m ≠ n := by
              rintro rfl
              rw [hm] at hn
              cases hn
            have := htm.add_width_le hun (lt_of_le_of_ne hmn hne)
            have := htm.lt
            exact (Instant.le_iff_position ht hb).mpr (by omega)
        | none => exact h

theorem bucketStart_bucketStart (bucket : Span) (t : Instant) :
    bucketStart bucket (bucketStart bucket t) = bucketStart bucket t := by
  rcases le_or_gt bucket.wholeMillis 0 with hnone | hwidth
  · exact bucketStart_of_nonpos hnone _
  · have hbucket := InBucket.of_remainder hwidth t
    generalize t.epochMillis - t.epochMillis % bucket.wholeMillis = ms at hbucket
    have hstart := bucketStart_eq hbucket
    cases hms : Instant.ofEpochMillis? ms with
    | none =>
        rw [hms, Option.getD_none] at hstart
        rw [hstart, hstart]
    | some start =>
        rw [hms, Option.getD_some] at hstart
        obtain ⟨-, hposition⟩ := Instant.ofEpochMillis?_eq_some_iff.mp hms
        have hself : InBucket bucket.wholeMillis ms start :=
          ⟨hbucket.dvd, hposition.ge, by omega⟩
        rw [hstart, bucketStart_eq hself, hms, Option.getD_some]

theorem bucketStart_of_contains {ms : ℤ} (h : InBucket bucket.wholeMillis ms t)
    (hms : Calendar.Contains (ms / 1000)) :
    (bucketStart bucket t).isOrdinary ∧ (bucketStart bucket t).position = ms * 1000000 := by
  cases hstart : Instant.ofEpochMillis? ms with
  | none => exact absurd hms (Instant.ofEpochMillis?_eq_none_iff.mp hstart)
  | some start =>
      rw [bucketStart_eq h, hstart]
      exact Instant.ofEpochMillis?_eq_some_iff.mp hstart

theorem bucketStart_of_not_contains {ms : ℤ} (h : InBucket bucket.wholeMillis ms t)
    (hms : ¬Calendar.Contains (ms / 1000)) : bucketStart bucket t = t := by
  rw [bucketStart_eq h, Instant.ofEpochMillis?_eq_none_iff.mpr hms, Option.getD_none]

end starts

/-! ### Words of 64 bits -/

/-- The number, if a word of 64 bits with a sign holds it. -/
def signed64? (n : ℤ) : Option ℤ :=
  if Text.isSigned64 n then some n else none

/-- The remainder that is not negative, from the one with the sign of the number, if words hold
both. -/
def remainder64? (n width : ℤ) : Option ℤ := do
  let remainder ← signed64? (n.tmod width)
  if remainder < 0 then signed64? (remainder + width) else pure remainder

/-- The start of a bucket, computed in words of 64 bits, if they hold the result of every step. -/
def bucketStart64? (bucket : Span) (t : Instant) : Option Instant := do
  let width ← signed64? bucket.wholeMillis
  if width ≤ 0 then pure t
  else
    let seconds ← signed64? (t.seconds * 1000)
    let millis ← signed64? (seconds + (t.nanos / 1000000 : ℕ))
    let remainder ← remainder64? millis width
    let start ← signed64? (millis - remainder)
    pure ((Instant.ofEpochMillis? start).getD t)

section words
variable {n width : ℤ} {bucket : Span} {t : Instant}

theorem signed64?_eq (hlow : -9223372036854775808 ≤ n) (hhigh : n ≤ 9223372036854775807) :
    signed64? n = some n := by
  refine if_pos ?_
  unfold Text.isSigned64 Text.maxSigned64
  simp only [Bool.and_eq_true, decide_eq_true_iff]
  omega

theorem remainder64?_eq (hpos : 0 < width) (hwidth : width ≤ Span.maxMillis) :
    remainder64? n width = some (n % width) := by
  have hnonneg := Int.emod_nonneg n hpos.ne'
  have hlt := Int.emod_lt_of_pos n hpos
  unfold Span.maxMillis at hwidth
  have hfits : signed64? (n % width) = some (n % width) := signed64?_eq (by omega) (by omega)
  have htmod : n.tmod width = _ := Int.tmod_eq_emod
  unfold remainder64?
  split_ifs at htmod
  · rw [Int.natCast_zero, sub_zero] at htmod
    rw [htmod, hfits]
    exact if_neg (not_lt.mpr hnonneg)
  · -- below zero, both remainders are a width apart
    rw [Int.natCast_natAbs, abs_of_pos hpos] at htmod
    rw [htmod, signed64?_eq (by omega) (by omega)]
    refine (if_pos (by omega)).trans ?_
    rw [sub_add_cancel, hfits]

/-- The multiple at or before a number is at most one width below zero, or less than twice as far
below zero as the number. -/
theorem min_le_self_sub_emod (hpos : 0 < width) : min (2 * n) (-width) ≤ n - n % width := by
  have hmultiple : n - n % width = width * (n / width) := by
    have := Int.mul_ediv_add_emod n width
    omega
  have hlt := Int.emod_lt_of_pos n hpos
  -- a multiple two widths below zero or more is at most one width away from the number
  rcases le_or_gt (-1) (n / width) with hnear | hfar
  · have := mul_le_mul_of_nonneg_left hnear hpos.le
    omega
  · have := mul_le_mul_of_nonneg_left (Int.le_sub_one_of_lt hfar) hpos.le
    omega

theorem epochMillis_bounds (t : Instant) :
    -8334601228800000 ≤ t.epochMillis ∧ t.epochMillis < 8210266876801000 := by
  obtain ⟨hfirst, hlast⟩ := t.inCalendar
  have hnanos := t.nanos_lt
  unfold Calendar.firstSecond at hfirst
  unfold Calendar.lastSecond at hlast
  unfold Instant.epochMillis
  omega

theorem bucketStart64?_eq (hpos : 0 < bucket.wholeMillis)
    (hwidth : bucket.wholeMillis ≤ Span.maxMillis) (t : Instant) :
    bucketStart64? bucket t = some (bucketStart bucket t) := by
  obtain ⟨hlow, hhigh⟩ := epochMillis_bounds t
  have hnonneg := Int.emod_nonneg t.epochMillis hpos.ne'
  have hstart := min_le_self_sub_emod (n := t.epochMillis) hpos
  have hword : signed64? bucket.wholeMillis = some bucket.wholeMillis :=
    signed64?_eq (by omega) hwidth
  have hseconds : signed64? (t.seconds * 1000) = some (t.seconds * 1000) := by
    unfold Instant.epochMillis at hlow hhigh
    have := t.nanos_lt
    exact signed64?_eq (by omega) (by omega)
  have hmillis : signed64? (t.seconds * 1000 + (t.nanos / 1000000 : ℕ)) = some t.epochMillis :=
    signed64?_eq (n := t.epochMillis) (by omega) (by omega)
  have hdifference : signed64? (t.epochMillis - t.epochMillis % bucket.wholeMillis) =
      some (t.epochMillis - t.epochMillis % bucket.wholeMillis) := by
    unfold Span.maxMillis at hwidth
    exact signed64?_eq (by omega) (by omega)
  simp only [bucketStart64?, Option.bind_eq_bind, Option.bind_some, hword, hseconds, hmillis,
    remainder64?_eq hpos hwidth, hdifference, if_neg (not_le.mpr hpos)]
  exact congrArg some (if_neg (not_le.mpr hpos)).symm

end words

/-- **The start of a bucket.**  For every bucket of a millisecond or more and every ordinary instant,
words of 64 bits hold the result of every step.  Exactly one multiple of the bucket is at or before
the instant and less than a bucket before it; the start is there if the calendar has that moment,
and otherwise it is the instant.  It is its own start, and no later instant has an earlier one. -/
theorem bucketStart_multiple {bucket : Span} (hpos : 0 < bucket.wholeMillis)
    (hwidth : bucket.wholeMillis ≤ Span.maxMillis) {t : Instant} (ht : t.isOrdinary) :
    bucketStart64? bucket t = some (bucketStart bucket t) ∧
      (∃ ms, (∀ other, InBucket bucket.wholeMillis other t ↔ other = ms) ∧
        (Calendar.Contains (ms / 1000) →
          (bucketStart bucket t).isOrdinary ∧ (bucketStart bucket t).position = ms * 1000000) ∧
        (¬Calendar.Contains (ms / 1000) → bucketStart bucket t = t)) ∧
      bucketStart bucket (bucketStart bucket t) = bucketStart bucket t ∧
      ∀ u, u.isOrdinary → t ≤ u → bucketStart bucket t ≤ bucketStart bucket u := by
  have hbucket := InBucket.of_remainder hpos t
  refine ⟨bucketStart64?_eq hpos hwidth t, ⟨_, fun other => ⟨fun h => h.unique hbucket, ?_⟩,
    bucketStart_of_contains hbucket, bucketStart_of_not_contains hbucket⟩,
    bucketStart_bucketStart bucket t, fun u hu h => bucketStart_mono bucket ht hu h⟩
  rintro rfl
  exact hbucket

/-- The widest bucket that there is starts before the calendar, just before the epoch: an instant in
it stays, and one of the bucket after it goes back to the epoch. -/
theorem bucketStart_multiple_widest :
    let bucket := Span.ofMillis Span.maxMillis
    let t : Instant := ⟨-1, 999999999, by decide, by decide⟩
    let u : Instant := ⟨86400, 5, by decide, by decide⟩
    0 < bucket.wholeMillis ∧ bucket.wholeMillis ≤ Span.maxMillis ∧ t.isOrdinary ∧ u.isOrdinary ∧
      t ≤ u ∧ bucketStart bucket t = t ∧ bucketStart64? bucket t = some t ∧
      (bucketStart bucket u).position = 0 ∧ bucketStart bucket t ≤ bucketStart bucket u := by
  intro bucket t u
  have hpos : 0 < bucket.wholeMillis := by decide
  have hwidth : bucket.wholeMillis ≤ Span.maxMillis := by decide
  have ht : t.isOrdinary := by decide
  have hu : u.isOrdinary := by decide
  have htu : t ≤ u := by decide
  have hstart : bucketStart bucket t = t := by decide
  obtain ⟨hwords, -, -, hmono⟩ := bucketStart_multiple hpos hwidth ht
  rw [hstart] at hwords
  exact ⟨hpos, hwidth, ht, hu, htu, hstart, hwords, by decide, hmono u hu htu⟩

end RouteTraffic
