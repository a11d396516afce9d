import Mathlib

/-! # Rational numbers rounded to doubles

A rational number is rounded to the nearest multiple of a power of two that has 53 bits, or fewer
where the range of exponents ends below; above it has no end here (`rounded`).  No double is nearer
(`rounded_nearest`), so rounding keeps the order of numbers (`rounded_mono`) and leaves doubles as
they are (`rounded_of_onGrid`): a bound that is a double is not crossed by rounding.

Of two doubles that are equally near the one with the even mantissa is taken.  Where a bound of 53
bits in units of some power of two is passed by no more than a unit, this leads back to it
(`rounded_le_of_unit`). -/

namespace RouteTraffic.Decimal

/-! ### Whole numbers -/

/-- The nearest whole number; of two that are equally near, the even one. -/
def roundEven (q : ℚ) : ℤ :=
  if 2 * Int.fract q < 1 then ⌊q⌋
  else if 1 < 2 * Int.fract q then ⌊q⌋ + 1
  else if ⌊q⌋ % 2 = 0 then ⌊q⌋ else ⌊q⌋ + 1

theorem roundEven_near (q : ℚ) : |(roundEven q : ℚ) - q| ≤ 1 / 2 := by
  have hq : (⌊q⌋ : ℚ) + Int.fract q = q := Int.floor_add_fract q
  have hlow := Int.fract_nonneg q
  have hhigh := Int.fract_lt_one q
  unfold roundEven
  split_ifs <;> push_cast <;> rw [abs_le] <;> constructor <;> linarith

theorem roundEven_intCast (n : ℤ) : roundEven n = n := by
  simp [roundEven]

theorem roundEven_nearest (q : ℚ) (n : ℤ) : |(roundEven q : ℚ) - q| ≤ |(n : ℚ) - q| := by
  by_cases hn : n = roundEven q
  · rw [hn]
  · -- another whole number is at least one away from the nearest
    have hone : (1 : ℚ) ≤ |(n : ℚ) - roundEven q| := by
      exact_mod_cast Int.one_le_abs (sub_ne_zero.mpr hn)
    have hnear := roundEven_near q
    have htriangle : |(n : ℚ) - roundEven q| ≤ |(n : ℚ) - q| + |(roundEven q : ℚ) - q| := by
      have := abs_sub_le (n : ℚ) q (roundEven q)
      rwa [abs_sub_comm q] at this
    linarith

theorem roundEven_le {q : ℚ} {n : ℤ} (h : q ≤ n) : roundEven q ≤ n := by
  have hnear := (abs_le.mp (roundEven_near q)).2
  have hlt : (roundEven q : ℚ) < n + 1 := by linarith
  exact Int.lt_add_one_iff.mp (by exact_mod_cast hlt)

theorem le_roundEven {q : ℚ} {n : ℤ} (h : n ≤ q) : n ≤ roundEven q := by
  have hnear := (abs_le.mp (roundEven_near q)).1
  have hlt : (n : ℚ) < roundEven q + 1 := by linarith
  exact Int.lt_add_one_iff.mp (by exact_mod_cast hlt)

theorem roundEven_neg (q : ℚ) : roundEven (-q) = -roundEven q := by
  by_cases hq : Int.fract q = 0
  · have hint : (⌊q⌋ : ℚ) = q := by
      have := Int.floor_add_fract q
      rwa [hq, add_zero] at this
    rw [← hint, ← Int.cast_neg, roundEven_intCast, roundEven_intCast]
  · have hfloor : ⌊-q⌋ = -⌊q⌋ - 1 := by
      have hpos := lt_of_le_of_ne (Int.fract_nonneg q) (Ne.symm hq)
      have hlt := Int.fract_lt_one q
      have hadd := Int.floor_add_fract q
      rw [Int.floor_eq_iff]
      push_cast
      constructor <;> linarith
    have hfract : Int.fract (-q) = 1 - Int.fract q := Int.fract_neg hq
    unfold roundEven
    rw [hfloor, hfract]
    split_ifs <;> first | omega | (exfalso; linarith)

/-! ### Numbers of 53 bits -/

/-- The number has at most 53 bits, none of them below the last place of the smallest doubles.  All
finite doubles are such numbers. -/
def OnGrid (q : ℚ) : Prop := ∃ m e : ℤ, q = m * 2 ^ e ∧ |m| ≤ 2 ^ 53 ∧ -1074 ≤ e

theorem onGrid_zero : OnGrid 0 := ⟨0, 0, by simp, by simp, by simp⟩

theorem OnGrid.neg {q : ℚ} (h : OnGrid q) : OnGrid (-q) := by
  obtain ⟨m, e, rfl, hm, he⟩ := h
  exact ⟨-m, e, by push_cast; ring, by rwa [abs_neg], he⟩

theorem onGrid_two_zpow {e : ℤ} (he : -1074 ≤ e) : OnGrid (2 ^ e) :=
  ⟨1, e, by simp, by norm_num, he⟩

theorem onGrid_natCast {n : ℕ} (h : n ≤ 2 ^ 53) : OnGrid n :=
  ⟨n, 0, by simp, by rw [Nat.abs_cast]; exact_mod_cast h, by norm_num⟩

/-- The exponent of the last place of the doubles around a number. -/
def placeOf (q : ℚ) : ℤ := max (Int.log 2 |q| - 52) (-1074)

/-- The number of 53 bits that is nearest to a number. -/
def rounded (q : ℚ) : ℚ := roundEven (q / 2 ^ placeOf q) * 2 ^ placeOf q

theorem two_zpow_pos (e : ℤ) : (0 : ℚ) < 2 ^ e := zpow_pos (by norm_num) e

theorem abs_lt_place (q : ℚ) : |q| < 2 ^ (placeOf q + 53) := by
  have hlog : |q| < 2 ^ (Int.log 2 |q| + 1) := Int.lt_zpow_succ_log_self (by norm_num) |q|
  refine hlog.trans_le (zpow_le_zpow_right₀ (by norm_num) ?_)
  have := le_max_left (Int.log 2 |q| - 52) (-1074)
  unfold placeOf
  omega

theorem rounded_eq {q : ℚ} {t : ℤ} (hhigh : |q| < 2 ^ (t + 53))
    (hlow : t = -1074 ∨ -1074 ≤ t ∧ 2 ^ (t + 52) ≤ |q|) :
    rounded q = roundEven (q / 2 ^ t) * 2 ^ t := by
  rcases eq_or_ne q 0 with rfl | hq
  · simp [rounded, roundEven]
  have hlog : Int.log 2 |q| < t + 53 :=
    (Int.lt_zpow_iff_log_lt (b := 2) (by norm_num) (abs_pos.mpr hq)).mp (by exact_mod_cast hhigh)
  have hplace : placeOf q = t := by
    rcases hlow with rfl | ⟨ht, hlow⟩
    · unfold placeOf
      omega
    · have hlog' : t + 52 ≤ Int.log 2 |q| :=
        (Int.zpow_le_iff_le_log (b := 2) (by norm_num) (abs_pos.mpr hq)).mp (by exact_mod_cast hlow)
      unfold placeOf
      omega
  rw [rounded, hplace]

theorem rounded_near (q : ℚ) : |rounded q - q| ≤ 2 ^ (placeOf q - 1) := by
  have hpos := two_zpow_pos (placeOf q)
  have hnear := roundEven_near (q / 2 ^ placeOf q)
  have hscale : rounded q - q =
      (roundEven (q / 2 ^ placeOf q) - q / 2 ^ placeOf q) * 2 ^ placeOf q := by
    rw [rounded, sub_mul, div_mul_cancel₀ _ hpos.ne']
  rw [hscale, abs_mul, abs_of_pos hpos, zpow_sub_one₀ (by norm_num)]
  nlinarith

theorem rounded_onGrid (q : ℚ) : OnGrid (rounded q) := by
  have hpos := two_zpow_pos (placeOf q)
  refine ⟨roundEven (q / 2 ^ placeOf q), placeOf q, rfl, ?_, le_max_right _ _⟩
  have hlt : |q / 2 ^ placeOf q| < 2 ^ 53 := by
    rw [abs_div, abs_of_pos hpos, div_lt_iff₀ hpos, ← zpow_natCast, ← zpow_add₀ (by norm_num)]
    have := abs_lt_place q
    rwa [add_comm] at this
  obtain ⟨hlow, hhigh⟩ := abs_le.mp hlt.le
  rw [abs_le]
  exact ⟨le_roundEven (by exact_mod_cast hlow), roundEven_le (by exact_mod_cast hhigh)⟩

theorem rounded_nearest {f : ℚ} (hf : OnGrid f) (q : ℚ) : |rounded q - q| ≤ |f - q| := by
  rcases eq_or_ne q 0 with rfl | hq
  · simp [rounded, roundEven]
  have hpos := two_zpow_pos (placeOf q)
  -- multiples of the last place are no nearer
  have hmultiple (n : ℤ) : |rounded q - q| ≤ |(n : ℚ) * 2 ^ placeOf q - q| := by
    have hscale (k : ℤ) : (k : ℚ) * 2 ^ placeOf q - q =
        (k - q / 2 ^ placeOf q) * 2 ^ placeOf q := by
      rw [sub_mul, div_mul_cancel₀ _ hpos.ne']
    rw [rounded, hscale, hscale, abs_mul, abs_mul]
    exact mul_le_mul_of_nonneg_right (roundEven_nearest _ n) (abs_nonneg _)
  obtain ⟨m, e, rfl, hm, he⟩ := hf
  by_cases hplace : placeOf q ≤ e
  · obtain ⟨k, hk⟩ := Int.le.dest hplace
    have := hmultiple (m * 2 ^ k)
    rwa [show ((m * 2 ^ k : ℤ) : ℚ) * 2 ^ placeOf q = m * 2 ^ e by
      rw [← hk, zpow_add₀ (by norm_num), zpow_natCast]; push_cast; ring] at this
  · -- a number with a smaller last place lies beyond the power of two below `q`
    have hlog : placeOf q = Int.log 2 |q| - 52 := by
      unfold placeOf at hplace ⊢
      omega
    have hbelow : (2 : ℚ) ^ (placeOf q + 52) ≤ |q| := by
      rw [hlog, sub_add_cancel]
      exact Int.zpow_log_le_self (by norm_num) (abs_pos.mpr hq)
    have hf : |(m : ℚ) * 2 ^ e| ≤ 2 ^ (placeOf q + 52) := by
      have hm' : |(m : ℚ)| ≤ 2 ^ (53 : ℤ) := by exact_mod_cast hm
      calc |(m : ℚ) * 2 ^ e| = |(m : ℚ)| * 2 ^ e := by rw [abs_mul, abs_of_pos (two_zpow_pos e)]
        _ ≤ 2 ^ (53 : ℤ) * 2 ^ e := mul_le_mul_of_nonneg_right hm' (two_zpow_pos e).le
        _ = 2 ^ (53 + e) := (zpow_add₀ (by norm_num) _ _).symm
        _ ≤ 2 ^ (placeOf q + 52) := zpow_le_zpow_right₀ (by norm_num) (by omega)
    have hpower : (2 : ℚ) ^ (placeOf q + 52) = (2 ^ 52 : ℤ) * 2 ^ placeOf q := by
      rw [add_comm, zpow_add₀ (by norm_num)]
      norm_num
    rcases le_total 0 q with hsign | hsign
    · have := hmultiple (2 ^ 52)
      rw [← hpower] at this
      rw [abs_of_nonneg hsign] at hbelow
      have hle := (le_abs_self _).trans hf
      rw [abs_of_nonpos (by linarith : (2 : ℚ) ^ (placeOf q + 52) - q ≤ 0)] at this
      rw [abs_of_nonpos (by linarith : (m : ℚ) * 2 ^ e - q ≤ 0)]
      linarith
    · have := hmultiple (-2 ^ 52)
      rw [Int.cast_neg, neg_mul, ← hpower] at this
      rw [abs_of_nonpos hsign] at hbelow
      have hle := (neg_abs_le _).trans' (neg_le_neg hf)
      rw [abs_of_nonneg (by linarith : 0 ≤ -(2 : ℚ) ^ (placeOf q + 52) - q)] at this
      rw [abs_of_nonneg (by linarith : 0 ≤ (m : ℚ) * 2 ^ e - q)]
      linarith

theorem rounded_of_onGrid {q : ℚ} (h : OnGrid q) : rounded q = q := by
  have hnear := rounded_nearest h q
  rw [sub_self, abs_zero, abs_nonpos_iff] at hnear
  exact sub_eq_zero.mp hnear

theorem rounded_mono : Monotone rounded := by
  intro q r hqr
  by_contra hlt
  rw [not_le] at hlt
  have hq := rounded_nearest (rounded_onGrid r) q
  have hr := rounded_nearest (rounded_onGrid q) r
  rw [← sq_le_sq] at hq hr
  -- both numbers would have to be the middle of the two they are rounded to
  have hqmiddle : rounded q + rounded r ≤ 2 * q := by nlinarith
  have hrmiddle : 2 * r ≤ rounded q + rounded r := by nlinarith
  obtain rfl : q = r := le_antisymm hqr (by linarith)
  exact lt_irrefl _ hlt

theorem rounded_le {q r : ℚ} (h : q ≤ r) (hr : OnGrid r) : rounded q ≤ r :=
  (rounded_mono h).trans_eq (rounded_of_onGrid hr)

theorem le_rounded {q r : ℚ} (h : r ≤ q) (hr : OnGrid r) : r ≤ rounded q :=
  (rounded_of_onGrid hr).symm.trans_le (rounded_mono h)

theorem rounded_nonneg {q : ℚ} (h : 0 ≤ q) : 0 ≤ rounded q := le_rounded h onGrid_zero

theorem rounded_neg (q : ℚ) : rounded (-q) = -rounded q := by
  have hplace : placeOf (-q) = placeOf q := by rw [placeOf, abs_neg, placeOf]
  rw [rounded, hplace, neg_div, roundEven_neg, rounded, Int.cast_neg, neg_mul]

/-! ### Sums at the end of the mantissa -/

/-- A number of 53 bits in some unit is what a number beyond it by no more than the unit is rounded
to. -/
theorem rounded_le_of_unit {q : ℚ} {e : ℤ} (he : -1074 ≤ e) (h : q ≤ 2 ^ (e + 53) + 2 ^ e) :
    rounded q ≤ 2 ^ (e + 53) := by
  have hpos := two_zpow_pos e
  have hdouble : (2 : ℚ) ^ (e + 1) = 2 * 2 ^ e := by rw [zpow_add_one₀ (by norm_num)]; ring
  have hbound : (2 : ℚ) ^ (e + 53) = 2 ^ 53 * 2 ^ e := by
    rw [add_comm, zpow_add₀ (by norm_num)]
    norm_num
  have hsum : 0 ≤ (2 : ℚ) ^ (e + 53) + 2 ^ e := by positivity
  have hlog : Int.log 2 |(2 : ℚ) ^ (e + 53) + 2 ^ e| = e + 53 := by
    rw [abs_of_nonneg hsum]
    have hfirst : (2 : ℚ) ^ (e + 53 + 1) = 2 * 2 ^ (e + 53) := by
      rw [zpow_add_one₀ (by norm_num)]
      ring
    refine le_antisymm (Int.lt_add_one_iff.mp ?_) ?_
    · refine (Int.lt_zpow_iff_log_lt (b := 2) (by norm_num) (by positivity)).mp ?_
      push_cast
      rw [hfirst, hbound]
      linarith
    · refine (Int.zpow_le_iff_le_log (b := 2) (by norm_num) (by positivity)).mp ?_
      push_cast
      linarith
  have hplace : placeOf ((2 : ℚ) ^ (e + 53) + 2 ^ e) = e + 1 := by
    rw [placeOf, hlog]
    omega
  -- half a unit of the last place lies between, and the even mantissa is the one below
  have hscaled : ((2 : ℚ) ^ (e + 53) + 2 ^ e) / 2 ^ (e + 1) = (2 ^ 52 : ℤ) + 1 / 2 := by
    rw [hdouble, hbound]
    field_simp
    norm_num
  have heven : roundEven ((2 ^ 52 : ℤ) + 1 / 2) = 2 ^ 52 := by
    unfold roundEven
    rw [Int.fract_intCast_add, Int.floor_intCast_add]
    norm_num
  calc rounded q ≤ rounded (2 ^ (e + 53) + 2 ^ e) := rounded_mono h
    _ = (2 ^ 52 : ℤ) * 2 ^ (e + 1) := by rw [rounded, hplace, hscaled, heven]
    _ = 2 ^ (e + 53) := by rw [hdouble, hbound]; push_cast; ring

/-- Up to a power of two, half a unit of the last place below it is the most that rounding
changes. -/
theorem rounded_error {q : ℚ} {e : ℤ} (he : -1020 ≤ e) (h : |q| ≤ 2 ^ e) :
    |rounded q - q| ≤ 2 ^ (e - 54) := by
  rcases eq_or_lt_of_le h with heq | hlt
  · have hgrid : OnGrid q := by
      rcases eq_or_eq_neg_of_abs_eq heq with rfl | rfl
      · exact onGrid_two_zpow (by omega)
      · exact (onGrid_two_zpow (by omega)).neg
    rw [rounded_of_onGrid hgrid, sub_self, abs_zero]
    exact (two_zpow_pos _).le
  · rcases eq_or_ne q 0 with rfl | hq
    · rw [rounded_of_onGrid onGrid_zero, sub_self, abs_zero]
      exact (two_zpow_pos _).le
    · have hlog : Int.log 2 |q| < e :=
        (Int.lt_zpow_iff_log_lt (b := 2) (by norm_num) (abs_pos.mpr hq)).mp (by exact_mod_cast hlt)
      refine (rounded_near q).trans (zpow_le_zpow_right₀ (by norm_num) ?_)
      unfold placeOf
      omega

theorem rounded_relative {q : ℚ} (h : 2 ^ (-1022 : ℤ) ≤ |q|) : |rounded q - q| ≤ |q| / 2 ^ 53 := by
  have hpos : 0 < |q| := (two_zpow_pos _).trans_le h
  have hlog : -1022 ≤ Int.log 2 |q| :=
    (Int.zpow_le_iff_le_log (b := 2) (by norm_num) hpos).mp (by exact_mod_cast h)
  have hplace : placeOf q = Int.log 2 |q| - 52 := by
    rw [placeOf]
    omega
  have hbit : (2 : ℚ) ^ Int.log 2 |q| ≤ |q| := by
    exact_mod_cast Int.zpow_log_le_self (b := 2) (by norm_num) hpos
  calc |rounded q - q| ≤ 2 ^ (placeOf q - 1) := rounded_near q
    _ = 2 ^ Int.log 2 |q| / 2 ^ 53 := by
        rw [hplace, sub_sub, zpow_sub₀ (by norm_num)]
        norm_num
    _ ≤ |q| / 2 ^ 53 := div_le_div_of_nonneg_right hbit (by norm_num)

end RouteTraffic.Decimal
