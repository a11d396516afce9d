import RouteTraffic.Calendar.Date
import Mathlib.Algebra.Order.Ring.Nat
import Mathlib.Algebra.Order.Ring.Int

/-! # Days and dates

Every day number is that of exactly one year (`yearOfDay_eq_iff`), and of one month and day of
that year (`monthAndDay_spec`); so the date of a day exists and stands for that day
(`Date.toDayNumber_ofDayNumber`), and a date that exists is the date of its day
(`Date.ofDayNumber_toDayNumber`).  The calendar is a number of whole years (`inYears_iff`). -/

namespace RouteTraffic.Calendar

/-! ### Years -/

/-- The number of days in a year. -/
def daysInYear (year : ℤ) : ℤ := if isLeap year then 366 else 365

theorem isLeap_iff (year : ℤ) :
    isLeap year = true ↔ year % 4 = 0 ∧ (year % 100 ≠ 0 ∨ year % 400 = 0) := by
  simp [isLeap]

theorem daysBeforeYear_succ (year : ℤ) :
    daysBeforeYear (year + 1) = daysBeforeYear year + daysInYear year := by
  have hleap := isLeap_iff year
  unfold daysBeforeYear daysInYear
  split_ifs with h
  · have := hleap.mp h
    omega
  · have := mt hleap.mpr h
    omega

/-- Four hundred years have 146097 days, and no year starts two days away from where the mean
length of a year puts it. -/
theorem daysBeforeYear_mean (year : ℤ) :
    146097 * (year - 1970) - 506 ≤ 400 * daysBeforeYear year ∧
      400 * daysBeforeYear year ≤ 146097 * (year - 1970) + 589 := by
  unfold daysBeforeYear
  omega

/-- The guess from the mean length of a year has to be moved by one year at most. -/
theorem yearOfDay_bounds (n : ℤ) :
    daysBeforeYear (yearOfDay n) ≤ n ∧ n < daysBeforeYear (yearOfDay n + 1) := by
  have hbefore := daysBeforeYear_mean (n * 400 / 146097 + 1970 - 1)
  have hafter := daysBeforeYear_mean (n * 400 / 146097 + 1970 + 1 + 1)
  unfold yearOfDay
  dsimp only
  split_ifs with hlow hhigh
  · rw [Int.sub_add_cancel]
    exact ⟨by omega, hlow⟩
  · exact ⟨hhigh, by omega⟩
  · exact ⟨by omega, by omega⟩

theorem daysBeforeYear_mono {a b : ℤ} (h : a ≤ b) : daysBeforeYear a ≤ daysBeforeYear b := by
  unfold daysBeforeYear
  omega

theorem yearOfDay_eq_iff {n year : ℤ} :
    yearOfDay n = year ↔ daysBeforeYear year ≤ n ∧ n < daysBeforeYear (year + 1) := by
  constructor
  · rintro rfl
    exact yearOfDay_bounds n
  · rintro ⟨hle, hlt⟩
    obtain ⟨hle', hlt'⟩ := yearOfDay_bounds n
    rcases lt_trichotomy (yearOfDay n) year with h | h | h
    · have := daysBeforeYear_mono (Int.add_one_le_of_lt h)
      omega
    · exact h
    · have := daysBeforeYear_mono (Int.add_one_le_of_lt h)
      omega

theorem inYears_iff {seconds : ℤ} : firstSecond ≤ seconds ∧ seconds ≤ lastSecond ↔
    firstYear ≤ yearOfDay (seconds / 86400) ∧ yearOfDay (seconds / 86400) ≤ lastYear := by
  obtain ⟨hle, hlt⟩ := yearOfDay_bounds (seconds / 86400)
  rw [firstSecond_eq, lastSecond_eq]
  constructor
  · rintro ⟨hfirst, hlast⟩
    constructor
    · by_contra hearly
      have := daysBeforeYear_mono (Int.add_one_le_of_lt (Int.not_le.mp hearly))
      omega
    · by_contra hlate
      have := daysBeforeYear_mono (Int.add_one_le_of_lt (Int.not_le.mp hlate))
      omega
  · rintro ⟨hfirst, hlast⟩
    have := daysBeforeYear_mono hfirst
    have := daysBeforeYear_mono (Int.add_le_add_right hlast 1)
    omega

/-! ### Months -/

theorem sum_monthLengths (year : ℤ) : ((monthLengths (isLeap year)).sum : ℤ) = daysInYear year := by
  unfold daysInYear
  cases isLeap year <;> rfl

/-- A day within months of these lengths, the first of which has the number `month`: its month is
one of them, it is a day of that month, and the months before it have the days before. -/
theorem monthAndDay_spec {lengths : List ℕ} {month rest m d : ℕ}
    (hrest : rest < lengths.sum) (h : monthAndDay lengths month rest = (m, d)) :
    ∃ i, m = month + i ∧ i < lengths.length ∧ 1 ≤ d ∧ d ≤ lengths.getD i 0 ∧
      (lengths.take i).sum + (d - 1) = rest := by
  induction lengths generalizing month rest with
  | nil => simp at hrest
  | cons length lengths ih =>
      rw [List.sum_cons] at hrest
      rw [monthAndDay] at h
      split_ifs at h with hlt
      · obtain ⟨rfl, rfl⟩ := Prod.mk.inj h
        exact ⟨0, rfl, by simp, by omega, by simpa using Nat.succ_le_of_lt hlt, by simp⟩
      · obtain ⟨i, rfl, hi, hd, hle, hsum⟩ := ih (by omega) h
        refine ⟨i + 1, by omega, by simpa using hi, hd, by simpa using hle, ?_⟩
        rw [List.take_succ_cons, List.sum_cons]
        omega

theorem monthAndDay_of_lt {lengths : List ℕ} {i k : ℕ} (hi : i < lengths.length)
    (hk : k < lengths.getD i 0) (month : ℕ) :
    monthAndDay lengths month ((lengths.take i).sum + k) = (month + i, k + 1) := by
  induction lengths generalizing i month with
  | nil => exact absurd hi (Nat.not_lt_zero i)
  | cons length lengths ih =>
      cases i with
      | zero =>
          rw [List.take_zero, List.sum_nil, Nat.zero_add, monthAndDay, if_pos (by simpa using hk)]
          rfl
      | succ i =>
          rw [List.take_succ_cons, List.sum_cons, monthAndDay, if_neg (by omega), Nat.add_assoc,
            Nat.add_sub_cancel_left, ih (by simpa using hi) (by simpa using hk)]
          exact congrArg (·, k + 1) (by omega)

/-! ### Dates -/

namespace Date

/-- The date of a day: its year holds the day, and its month and day are those of the rest. -/
theorem ofDayNumber_spec (n : ℤ) :
    ∃ i d, ofDayNumber n = ⟨yearOfDay n, i + 1, d⟩ ∧ i < 12 ∧ 1 ≤ d ∧
      d ≤ (monthLengths (isLeap (yearOfDay n))).getD i 0 ∧
      daysBeforeYear (yearOfDay n) + ((monthLengths (isLeap (yearOfDay n))).take i).sum +
        (d - 1 : ℕ) = n := by
  obtain ⟨hle, hlt⟩ := yearOfDay_bounds n
  rw [daysBeforeYear_succ, ← sum_monthLengths] at hlt
  obtain ⟨⟨m, d⟩, hmd⟩ : ∃ md, monthAndDay (monthLengths (isLeap (yearOfDay n))) 1
      (n - daysBeforeYear (yearOfDay n)).toNat = md := ⟨_, rfl⟩
  obtain ⟨i, rfl, hi, hd, hday, hsum⟩ := monthAndDay_spec (by omega) hmd
  refine ⟨i, d, ?_, by simpa [monthLengths] using hi, hd, hday, by omega⟩
  rw [ofDayNumber, hmd, Nat.add_comm]

theorem isValid_ofDayNumber (n : ℤ) : (ofDayNumber n).isValid = true := by
  obtain ⟨i, d, hdate, hi, hd, hday, -⟩ := ofDayNumber_spec n
  rw [hdate]
  simp only [isValid, daysInMonth, Bool.and_eq_true, decide_eq_true_eq]
  exact ⟨⟨⟨by omega, by omega⟩, hd⟩, by simpa using hday⟩

theorem toDayNumber_ofDayNumber (n : ℤ) : (ofDayNumber n).toDayNumber = n := by
  obtain ⟨i, d, hdate, -, -, -, hsum⟩ := ofDayNumber_spec n
  rw [hdate]
  simp only [toDayNumber, daysBeforeMonth, Nat.add_sub_cancel, ← List.sum_eq_foldl_nat]
  exact hsum

theorem isValid_iff {d : Date} : d.isValid = true ↔
    1 ≤ d.month ∧ d.month ≤ 12 ∧ 1 ≤ d.day ∧ d.day ≤ daysInMonth d.year d.month := by
  simp only [isValid, Bool.and_eq_true, decide_eq_true_eq, and_assoc]

theorem ofDayNumber_toDayNumber {d : Date} (h : d.isValid = true) :
    ofDayNumber d.toDayNumber = d := by
  obtain ⟨year, month, day⟩ := d
  obtain ⟨hmonth, hmonth', hday, hday'⟩ := isValid_iff.mp h
  dsimp only at hmonth hmonth' hday hday'
  obtain ⟨i, rfl⟩ : ∃ i, month = i + 1 := ⟨month - 1, by omega⟩
  obtain ⟨k, rfl⟩ : ∃ k, day = k + 1 := ⟨day - 1, by omega⟩
  have hi : i < (monthLengths (isLeap year)).length := Nat.lt_of_succ_le hmonth'
  have hk : k < (monthLengths (isLeap year)).getD i 0 := hday'
  have hnumber : toDayNumber ⟨year, i + 1, k + 1⟩ =
      daysBeforeYear year + (((monthLengths (isLeap year)).take i).sum + k : ℕ) := by
    simp only [toDayNumber, daysBeforeMonth, Nat.add_sub_cancel, ← List.sum_eq_foldl_nat]
    omega
  have hmonths : ∀ leap, ∀ i < 12, ((monthLengths leap).take i).sum +
      (monthLengths leap).getD i 0 ≤ (monthLengths leap).sum := by decide
  have hwithin := hmonths (isLeap year) i (Nat.lt_of_succ_le hmonth')
  have hyear : yearOfDay (toDayNumber ⟨year, i + 1, k + 1⟩) = year := by
    rw [yearOfDay_eq_iff, daysBeforeYear_succ, ← sum_monthLengths, hnumber]
    omega
  rw [ofDayNumber, hyear, hnumber]
  dsimp only
  rw [add_sub_cancel_left, Int.toNat_natCast, monthAndDay_of_lt hi hk, Nat.add_comm]

theorem ofDayNumber_lt (n : ℤ) : (ofDayNumber n).month < 100 ∧ (ofDayNumber n).day < 100 := by
  obtain ⟨i, d, hdate, hi, -, hday, -⟩ := ofDayNumber_spec n
  rw [hdate]
  refine ⟨show i + 1 < 100 by omega, show d < 100 from Nat.lt_of_le_of_lt hday ?_⟩
  have : ∀ leap, ∀ i < 12, (monthLengths leap).getD i 0 < 100 := by decide
  exact this _ i hi

end Date

end RouteTraffic.Calendar
