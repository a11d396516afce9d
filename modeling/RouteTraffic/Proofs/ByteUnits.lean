import RouteTraffic.ByteSize
import RouteTraffic.Proofs.FixedDecimals

/-! # Byte counts in units

A byte count is shown as the whole number of some unit that is nearest to it (`format_nearest`).
Which unit this is depends on a logarithm in doubles, which may be off; but in whatever unit the
count is expressed, the quotient is exact (`value_div_unitSize`), so it is rounded only once. -/

namespace RouteTraffic.ByteSize

open Decimal Text

/-! ### Exact quotients -/

theorem onGrid_div_two_pow {q : ℚ} (h : OnGrid q) (hlarge : 1 ≤ |q|) {k : ℕ} (hk : k ≤ 1021) :
    OnGrid (q / 2 ^ k) := by
  obtain ⟨m, e, rfl, hm, -⟩ := h
  have hm' : |(m : ℚ)| ≤ 2 ^ (53 : ℤ) := by exact_mod_cast hm
  have hpower : (2 : ℚ) ^ (0 : ℤ) ≤ 2 ^ (53 + e) := by
    calc (2 : ℚ) ^ (0 : ℤ) ≤ |(m : ℚ)| * 2 ^ e := by
          rwa [zpow_zero, ← abs_of_pos (two_zpow_pos e), ← abs_mul]
      _ ≤ 2 ^ (53 : ℤ) * 2 ^ e := mul_le_mul_of_nonneg_right hm' (two_zpow_pos e).le
      _ = 2 ^ (53 + e) := (zpow_add₀ (by norm_num) _ _).symm
  have he : 0 ≤ 53 + e := (zpow_le_zpow_iff_right₀ (by norm_num)).mp hpower
  refine ⟨m, e - k, ?_, hm, by omega⟩
  rw [zpow_sub₀ (by norm_num), zpow_natCast, mul_div_assoc]

theorem twoPow_mul_ten (e : ℕ) : ((twoPow (10 * e) : ℕ) : ℚ) = 1024 ^ e := by
  rw [twoPow_eq, pow_mul]
  norm_num

theorem value_unitSize {e : ℕ} (he : e ≤ 5) :
    (unitSize e).isFinite = true ∧ value (unitSize e) = 1024 ^ e := by
  have hsmall : twoPow (10 * e) ≤ 2 ^ 53 := Nat.pow_le_pow_right (by decide) (by omega)
  have hrounded : rounded (twoPow (10 * e) : ℕ) = 1024 ^ e := by
    rw [rounded_of_onGrid (onGrid_natCast hsmall), twoPow_mul_ten]
  rw [← hrounded]
  refine value_ofNat ?_
  rw [hrounded]
  calc (1024 : ℚ) ^ e ≤ 1024 ^ 5 := pow_le_pow_right₀ (by norm_num) he
    _ < 2 ^ (1024 : ℤ) := by
        rw [show (1024 : ℚ) = 2 ^ (10 : ℤ) by norm_num, ← zpow_natCast, ← zpow_mul]
        exact zpow_lt_zpow_right₀ (by norm_num) (by norm_num)

/-- Nothing is lost when a count that is not small is expressed in a unit. -/
theorem value_div_unitSize {x : Float} (hx : x.isFinite = true) (hlarge : 1 ≤ value x) {e : ℕ}
    (he : e ≤ 5) :
    (x / unitSize e).isFinite = true ∧ value (x / unitSize e) = value x / 1024 ^ e := by
  obtain ⟨hunit, hvalue⟩ := value_unitSize he
  have hpos : (0 : ℚ) < 1024 ^ e := by positivity
  have habs : |value x| = value x := abs_of_nonneg (by linarith)
  have hgrid : OnGrid (value x / value (unitSize e)) := by
    rw [hvalue, ← twoPow_mul_ten, twoPow_eq, Nat.cast_pow, Nat.cast_ofNat]
    exact onGrid_div_two_pow (value_onGrid x) (hlarge.trans_eq habs.symm) (by omega)
  have hdiv := value_div hx hunit (hvalue ▸ hpos.ne')
  rw [rounded_of_onGrid hgrid, hvalue] at hdiv
  refine hdiv ?_
  rw [abs_div, abs_of_pos hpos]
  exact (div_le_self (abs_nonneg _) (one_le_pow₀ (by norm_num))).trans_lt (abs_value_lt x)

/-! ### Rounding in a unit -/

/-- The text is a whole number of the unit with the index, the one that is nearest to the count, of
two the larger one. -/
def ShowsNearest (count : ℚ) (e : ℕ) (text : String) : Prop :=
  ∃ unit ∈ unitNames[e]?, ∃ n : ℕ, text = String.ofList (digits n) ++ " " ++ unit ∧
    n = ⌊count / 1024 ^ e + 1 / 2⌋₊ ∧ |count - n * 1024 ^ e| ≤ 1024 ^ e / 2

theorem unitNames_getElem? {e : ℕ} (he : e ≤ 5) :
    unitNames[e]? = some (unitNames.getD e "") := by
  interval_cases e <;> rfl

theorem abs_sub_floor_half {q : ℚ} (h : 0 ≤ q) : |q - ⌊q + 1 / 2⌋₊| ≤ 1 / 2 := by
  have hle := Nat.floor_le (show 0 ≤ q + 1 / 2 by linarith)
  have hlt := Nat.lt_floor_add_one (q + 1 / 2)
  rw [abs_le]
  constructor <;> linarith

theorem fixed_zero_eq {x : Float} (hx : x.isFinite = true) (h0 : 0 ≤ value x) :
    fixed 0 x = digits ⌊value x + 1 / 2⌋₊ := by
  rw [fixed_eq hx (Nat.zero_le _), if_neg (not_lt.mpr h0), List.nil_append, abs_of_nonneg h0,
    pow_zero, mul_one, pointed_eq, pow_zero, Nat.div_one]
  exact List.append_nil _

theorem showsNearest_fixed {x y : Float} {e : ℕ} {unit : String} (hy : y.isFinite = true)
    (h0 : 0 ≤ value x) (hvalue : value y = value x / 1024 ^ e) (hunit : unitNames[e]? = some unit) :
    ShowsNearest (value x) e (String.ofList (fixed 0 y) ++ " " ++ unit) := by
  have hpos : (0 : ℚ) < 1024 ^ e := by positivity
  have hnonneg : 0 ≤ value x / 1024 ^ e := div_nonneg h0 hpos.le
  refine ⟨unit, hunit, ⌊value x / 1024 ^ e + 1 / 2⌋₊, ?_, rfl, ?_⟩
  · rw [fixed_zero_eq hy (hvalue ▸ hnonneg), hvalue]
  · have hscaled := mul_le_mul_of_nonneg_right (abs_sub_floor_half hnonneg) hpos.le
    rw [← abs_of_pos hpos, ← abs_mul, abs_of_pos hpos, sub_mul, div_mul_cancel₀ _ hpos.ne',
      one_div_mul_eq_div] at hscaled
    exact hscaled

/-- **Byte counts** are shown in bytes below 1024, and from there on in the unit that a logarithm
leads to, the last unit at most.  Whatever the logarithm, the number shown is the whole number of
the unit that is nearest to the count. -/
theorem format_nearest {x : Float} (hx : x.isFinite = true) (h0 : 0 ≤ value x) :
    let unitBy (logarithm : Float → ℕ) := if value x < 1024 then 0 else min (logarithm x) 5
    ShowsNearest (value x) (unitBy log1024) (format x) ∧
      ∀ logarithm, ShowsNearest (value x) (unitBy logarithm) (formatBy logarithm x) := by
  have hlimit : value (1024.0 : Float) = 1024 := by decide +kernel
  have hbelow : x < 1024.0 ↔ value x < 1024 := by
    rw [lt_iff_value hx (by decide +kernel), hlimit]
  have hall (logarithm : Float → ℕ) : ShowsNearest (value x)
      (if value x < 1024 then 0 else min (logarithm x) 5) (formatBy logarithm x) := by
    unfold formatBy
    rw [hx, Bool.not_true, if_neg Bool.false_ne_true]
    simp only [hbelow]
    split_ifs with hsmall
    · rw [show " B" = " " ++ "B" by rfl, ← String.append_assoc]
      exact showsNearest_fixed hx h0 (by rw [pow_zero, div_one]) rfl
    · have he : min (logarithm x) 5 ≤ 5 := min_le_right _ _
      obtain ⟨hfinite, hvalue⟩ := value_div_unitSize hx (by linarith) he
      exact showsNearest_fixed hfinite h0 hvalue (unitNames_getElem? he)
  exact ⟨hall log1024, hall⟩

/-- A count just below the next unit, whichever of the two it is shown in. -/
theorem format_nearest_below_unit :
    let x := ofNat (1024 ^ 2 - 1)
    let unitBy (logarithm : Float → ℕ) := if value x < 1024 then 0 else min (logarithm x) 5
    x.isFinite = true ∧ 0 ≤ value x ∧ formatBy (fun _ => 1) x = "1024 KB" ∧
      formatBy (fun _ => 2) x = "1 MB" ∧ ShowsNearest (value x) (unitBy log1024) (format x) ∧
      ∀ logarithm, ShowsNearest (value x) (unitBy logarithm) (formatBy logarithm x) := by
  intro x unitBy
  have hx : x.isFinite = true := by decide +kernel
  have h0 : 0 ≤ value x := by decide +kernel
  exact ⟨hx, h0, by decide +kernel, by decide +kernel, format_nearest hx h0⟩

end RouteTraffic.ByteSize
