import RouteTraffic.Proofs.BoundedCounts
import RouteTraffic.Proofs.WholeNumerals

/-! # The numerals of doubles

Every finite double is written as a numeral (`renderFinite_numeral`), and what is read from it is
again finite (`exists_readsAs`), though it may be a neighbour of the double that was
written: the digits are rounded first, and scaled by a rounded power of ten then.

Nothing is lost to infinity on the way.  The shortest decimal of a double has at most 17 digits, and
the largest of them, that of the largest double, is rounded downwards when it is read
(`shortest_isBounded`, `Numeral.IsBounded.real`). -/

namespace RouteTraffic

namespace Decimal

open Text

/-! ### Scaled numbers -/

/-- The number that digits and a power of ten stand for. -/
def Scaled.value (s : Scaled) : ℚ := s.digits * 10 ^ s.exponent

/-- Zeros at the end of the digits do not change the value, and there are not more digits then. -/
theorem Scaled.go_bounds (fuel : ℕ) (s : Scaled) :
    (normal.go fuel s).value = s.value ∧ (normal.go fuel s).digits ≤ s.digits ∧
      (0 < s.digits → 0 < (normal.go fuel s).digits) ∧ s.exponent ≤ (normal.go fuel s).exponent := by
  induction fuel generalizing s with
  | zero => exact ⟨rfl, le_rfl, id, le_rfl⟩
  | succ fuel ih =>
      rw [normal.go]
      split_ifs with hzeros
      · obtain ⟨hvalue, hdigits, hpos, hexponent⟩ := ih ⟨s.digits / 10, s.exponent + 1⟩
        have hten : 10 * (s.digits / 10) = s.digits :=
          Nat.mul_div_cancel' (Nat.dvd_of_mod_eq_zero hzeros.2)
        refine ⟨hvalue.trans ?_, hdigits.trans (Nat.div_le_self _ _),
          fun h => hpos (by dsimp only; omega), by dsimp only at hexponent; omega⟩
        rw [Scaled.value, Scaled.value, zpow_add_one₀ (by norm_num)]
        conv_rhs => rw [← hten]
        push_cast
        ring
      · exact ⟨rfl, le_rfl, id, le_rfl⟩

/-! ### The rounding interval -/

/-- On a grid of tens, units of the interval and units of the grid are compared as numbers. -/
theorem scaled_le {x y : ℕ} {unit k : ℤ}
    (h : x * (twoPow (-unit).toNat * tenPow k.toNat) ≤
      y * (twoPow unit.toNat * tenPow (-k).toNat)) : (x : ℚ) * 10 ^ k ≤ y * 2 ^ unit := by
  rw [twoPow_eq, twoPow_eq, tenPow_eq, tenPow_eq] at h
  have hcast : (x : ℚ) * (2 ^ (-unit).toNat * 10 ^ k.toNat) ≤
      y * (2 ^ unit.toNat * 10 ^ (-k).toNat) := by exact_mod_cast h
  rw [zpow_eq_div (by norm_num) k, zpow_eq_div (by norm_num) unit, mul_div_assoc', mul_div_assoc',
    div_le_div_iff₀ (by positivity) (by positivity)]
  linarith

theorem nearer_cases {tie : TieRule} {below above q c : ℕ}
    (h : (if below < above then some q
      else if above < below then some (q + 1)
      else match tie with
        | .toEven => some (if q % 2 = 0 then q else q + 1)
        | .up => some (q + 1)) = some c) : c = q ∨ c = q + 1 := by
  cases tie <;> simp only at h <;> split_ifs at h <;> have := Option.some.inj h <;> omega

/-- A decimal on a grid of tens that reads back as a binary number lies at most half a unit above
it, and is the neighbour below or above it. -/
theorem onGrid?_bounds {tie : TieRule} {d : Binary} {k : ℤ} {c : ℕ} (hm : 0 < d.mantissa)
    (h : onGrid? tie d k = some c) :
    0 < c ∧ ((c : ℚ) - 1) * 10 ^ k ≤ d.mantissa * 2 ^ d.exponent ∧
      (c : ℚ) * 10 ^ k ≤ (d.mantissa + 1 / 2) * 2 ^ d.exponent := by
  simp only [onGrid?, roundingInterval] at h
  set lower := if d.mantissa = twoPow 52 ∧ -1074 < d.exponent then 4 * d.mantissa - 1
    else 4 * d.mantissa - 2
  set scale := twoPow (d.exponent - 2).toNat * tenPow (-k).toNat
  set step := twoPow (-(d.exponent - 2)).toNat * tenPow k.toNat
  set q := 4 * d.mantissa * scale / step
  have hlower : 0 < lower * scale := by
    refine Nat.mul_pos ?_ (Nat.mul_pos (twoPow_pos _) (tenPow_pos _))
    unfold lower
    split_ifs <;> omega
  have hinside (x : ℕ) : (if d.mantissa % 2 = 0 then
        decide (lower * scale ≤ x * step) && decide (x * step ≤ (4 * d.mantissa + 2) * scale)
      else decide (lower * scale < x * step) &&
        decide (x * step < (4 * d.mantissa + 2) * scale)) = true →
      0 < x ∧ x * step ≤ (4 * d.mantissa + 2) * scale := by
    intro hx
    have hle : lower * scale ≤ x * step ∧ x * step ≤ (4 * d.mantissa + 2) * scale := by
      split_ifs at hx <;> simp only [Bool.and_eq_true, decide_eq_true_eq] at hx <;> omega
    exact ⟨Nat.pos_of_mul_pos_right (Nat.lt_of_lt_of_le hlower hle.1), hle.2⟩
  have hneighbour : (c = q ∨ c = q + 1) ∧ 0 < c ∧ c * step ≤ (4 * d.mantissa + 2) * scale := by
    split at h
    · rename_i hq _
      obtain rfl := Option.some.inj h
      exact ⟨Or.inl rfl, hinside q hq⟩
    · rename_i _ hq
      obtain rfl := Option.some.inj h
      exact ⟨Or.inr rfl, hinside _ hq⟩
    · cases h
    · rename_i hq hq'
      rcases nearer_cases h with rfl | rfl
      · exact ⟨Or.inl rfl, hinside _ hq⟩
      · exact ⟨Or.inr rfl, hinside _ hq'⟩
  obtain ⟨hone, hpos, hupper⟩ := hneighbour
  have hquarter : (2 : ℚ) ^ d.exponent = 4 * 2 ^ (d.exponent - 2) := by
    rw [zpow_sub₀ (by norm_num)]
    norm_num
    ring
  refine ⟨hpos, ?_, ?_⟩
  · have hbelow : (c : ℚ) - 1 ≤ q := by
      rcases hone with rfl | rfl <;> push_cast <;> linarith
    have hq := scaled_le (Nat.div_mul_le_self (4 * d.mantissa * scale) step)
    have hten : (0 : ℚ) < 10 ^ k := zpow_pos (by norm_num) k
    rw [hquarter]
    push_cast at hq
    nlinarith [mul_le_mul_of_nonneg_right hbelow hten.le]
  · have hc := scaled_le hupper
    rw [hquarter]
    push_cast at hc
    linarith

theorem lt_decimalExponent (d : Binary) :
    (d.mantissa : ℚ) * 2 ^ d.exponent < 10 ^ decimalExponent d.num d.den := by
  have hlt : d.num * tenPow 400 / d.den < 10 ^ (digits (d.num * tenPow 400 / d.den)).length :=
    (length_digits_le_iff (length_digits_pos _)).mp le_rfl
  rw [Nat.div_lt_iff_lt_mul d.den_pos] at hlt
  have hcast : (d.num : ℚ) * tenPow 400 <
      10 ^ (digits (d.num * tenPow 400 / d.den)).length * d.den := by exact_mod_cast hlt
  have hten : ((tenPow 400 : ℕ) : ℚ) = 10 ^ (400 : ℤ) := by
    rw [tenPow_eq, Nat.cast_pow, Nat.cast_ofNat]
    exact (zpow_natCast 10 400).symm
  have hden : (0 : ℚ) < d.den := Nat.cast_pos.mpr d.den_pos
  rw [← binary_value, decimalExponent, zpow_sub₀ (by norm_num), zpow_natCast, ← hten,
    div_lt_div_iff₀ hden (Nat.cast_pos.mpr (tenPow_pos 400))]
  exact hcast

/-! ### Bounds of shortest decimals -/

/-- The shortest decimal of the largest double. -/
def largestShortest : ℚ := 17976931348623157 * 10 ^ (292 : ℤ)

/-- Other doubles have an interval of rounding that ends below it. -/
theorem upper_le {m : ℕ} {e : ℤ} (hlt : m < 2 ^ 53) (he : e ≤ 971)
    (hmax : ¬ (m = 2 ^ 53 - 1 ∧ e = 971)) : ((m : ℚ) + 1 / 2) * 2 ^ e ≤ largestShortest := by
  have hnext : (2 ^ 53 - 3 / 2 : ℚ) * 2 ^ (971 : ℤ) ≤ largestShortest := by decide +kernel
  refine le_trans ?_ hnext
  rcases eq_or_lt_of_le he with rfl | he
  · have hm : ((m + 2 : ℕ) : ℚ) ≤ 2 ^ 53 := by exact_mod_cast (by omega : m + 2 ≤ 2 ^ 53)
    refine mul_le_mul_of_nonneg_right ?_ (two_zpow_pos _).le
    push_cast at hm
    linarith
  · have hm : ((m + 1 : ℕ) : ℚ) ≤ 2 ^ 53 := by exact_mod_cast hlt
    have hhalf : (2 : ℚ) ^ e ≤ 2 ^ (970 : ℤ) := zpow_le_zpow_right₀ (by norm_num) (by omega)
    have hdouble : (2 : ℚ) ^ (971 : ℤ) = 2 * 2 ^ (970 : ℤ) := by
      rw [mul_comm, ← zpow_add_one₀ (by norm_num)]
      rfl
    have hpos := two_zpow_pos (970 : ℤ)
    push_cast at hm
    rw [hdouble]
    calc ((m : ℚ) + 1 / 2) * 2 ^ e ≤ 2 ^ 53 * 2 ^ (970 : ℤ) :=
          mul_le_mul (by linarith) hhalf (two_zpow_pos _).le (by norm_num)
      _ ≤ (2 ^ 54 - 3) * 2 ^ (970 : ℤ) := mul_le_mul_of_nonneg_right (by norm_num) hpos.le
      _ = (2 ^ 53 - 3 / 2) * (2 * 2 ^ (970 : ℤ)) := by ring

/-- A scaled number has at most 17 digits, and is no larger than the shortest decimal of the largest
double. -/
structure Scaled.IsBounded (s : Scaled) : Prop where
  pos : 0 < s.digits
  digits_le : s.digits ≤ 10 ^ 17
  value_le : s.value ≤ largestShortest
  exponent_ge : -417 ≤ s.exponent

theorem Scaled.IsBounded.normal {s : Scaled} (h : s.IsBounded) : s.normal.IsBounded := by
  obtain ⟨hvalue, hdigits, hpos, hexponent⟩ := Scaled.go_bounds (Text.digits s.digits).length s
  exact ⟨hpos h.pos, hdigits.trans h.digits_le, hvalue.trans_le h.value_le,
    h.exponent_ge.trans hexponent⟩

theorem shortest_isBounded {d : Binary} (hm : 0 < d.mantissa) (hlt : d.mantissa < 2 ^ 53)
    (he : d.exponent ≤ 971) : (shortest .toEven d).IsBounded := by
  by_cases hmax : d.mantissa = 2 ^ 53 - 1 ∧ d.exponent = 971
  · have hlargest : shortest .toEven ⟨2 ^ 53 - 1, 971⟩ = ⟨17976931348623157, 292⟩ := by
      decide +kernel
    obtain ⟨m, e⟩ := d
    obtain ⟨rfl, rfl⟩ := hmax
    rw [hlargest]
    exact ⟨by decide, by decide, le_rfl, by decide⟩
  rw [shortest, if_neg hm.ne']
  apply Scaled.IsBounded.normal
  cases hhit : (List.range 17).findSome? fun (n : ℕ) =>
      (onGrid? .toEven d (decimalExponent d.num d.den - (n + 1))).map fun c =>
        Scaled.mk c (decimalExponent d.num d.den - (n + 1)) with
  | none =>
      rw [Option.getD_none]
      have hlarge : (2 ^ 53 : ℚ) ≤ largestShortest := by decide +kernel
      have hvalue : (d.mantissa : ℚ) ≤ 2 ^ 53 := by exact_mod_cast hlt.le
      refine ⟨hm, by dsimp only; omega, ?_, by dsimp only; omega⟩
      rw [Scaled.value, zpow_zero, mul_one]
      exact hvalue.trans hlarge
  | some s =>
      obtain ⟨n, hn, hs⟩ := List.exists_of_findSome?_eq_some hhit
      obtain ⟨c, hc, rfl⟩ := Option.map_eq_some_iff.mp hs
      obtain ⟨hpos, hbelow, habove⟩ := onGrid?_bounds hm hc
      have hn17 := List.mem_range.mp hn
      have hlength := length_digits_pos (d.num * tenPow 400 / d.den)
      refine ⟨hpos, ?_, habove.trans (upper_le hlt he hmax), ?_⟩
      · -- one less than the neighbour is below the number, and this is below the power of ten
        have hten : (0 : ℚ) < 10 ^ (decimalExponent d.num d.den - (n + 1)) :=
          zpow_pos (by norm_num) _
        have hsplit : (10 : ℚ) ^ decimalExponent d.num d.den =
            10 ^ (n + 1) * 10 ^ (decimalExponent d.num d.den - (n + 1)) := by
          rw [← zpow_natCast, ← zpow_add₀ (by norm_num)]
          congr 1
          push_cast
          ring
        have hc : (c : ℚ) - 1 < 10 ^ (n + 1) := by
          refine lt_of_mul_lt_mul_right ?_ hten.le
          rw [← hsplit]
          exact hbelow.trans_lt (lt_decimalExponent d)
        have hnat : c < 10 ^ (n + 1) + 1 := by
          have : (c : ℚ) < ((10 ^ (n + 1) + 1 : ℕ) : ℚ) := by
            push_cast
            linarith
          exact_mod_cast this
        have hpow : 10 ^ (n + 1) ≤ 10 ^ 17 := Nat.pow_le_pow_right (by decide) (by omega)
        dsimp only [Option.getD_some]
        omega
      · dsimp only [Option.getD_some, decimalExponent]
        omega

theorem Scaled.IsBounded.exponent_le {s : Scaled} (h : s.IsBounded) : s.exponent ≤ 308 := by
  have hone : (1 : ℚ) ≤ s.digits := by exact_mod_cast h.pos
  have hlimit : largestShortest < 10 ^ (309 : ℤ) := by decide +kernel
  have hten : (0 : ℚ) < 10 ^ s.exponent := zpow_pos (by norm_num) _
  have hlt : (10 : ℚ) ^ s.exponent < 10 ^ (309 : ℤ) :=
    calc (10 : ℚ) ^ s.exponent ≤ s.digits * 10 ^ s.exponent := le_mul_of_one_le_left hten.le hone
      _ ≤ largestShortest := h.value_le
      _ < 10 ^ (309 : ℤ) := hlimit
  have := (zpow_lt_zpow_iff_right₀ (by norm_num)).mp hlt
  omega

theorem Scaled.IsBounded.length_le {s : Scaled} (h : s.IsBounded) :
    (Text.digits s.digits).length ≤ 18 :=
  (length_digits_le_iff (by decide)).mpr (h.digits_le.trans_lt (by decide))

end Decimal

/-! ### The numeral of a double -/

namespace Json

open Text Decimal

/-- The number that a numeral stands for. -/
def Numeral.value (n : Numeral) : ℚ := n.significand * 10 ^ n.exponent

/-- A numeral is read without leaving the range of doubles. -/
structure Numeral.IsBounded (n : Numeral) : Prop where
  significand_le : n.significand ≤ 10 ^ 17
  value_le : n.value ≤ largestShortest
  exponent_le : n.exponent ≤ 308

theorem Numeral.isBounded_of_scaled {n : Numeral} {s : Scaled} (h : s.IsBounded)
    (hsignificand : n.significand = s.digits) (hexponent : n.exponent = s.exponent) :
    n.IsBounded := by
  refine ⟨hsignificand ▸ h.digits_le, ?_, hexponent ▸ h.exponent_le⟩
  rw [Numeral.value, hsignificand, hexponent]
  exact h.value_le

theorem wholeNumeral_isBounded {n : ℕ} (h : 10 * n ≤ maxUnsigned64) (hlt : n < 10 ^ 16) :
    (wholeNumeral n h).IsBounded := by
  have hsignificand := wholeNumeral_significand h
  have hexponent : (wholeNumeral n h).exponent = -1 := rfl
  refine ⟨by omega, ?_, by omega⟩
  have hlarge : (10 ^ 16 : ℚ) ≤ largestShortest := by decide +kernel
  have hvalue : (n : ℚ) ≤ 10 ^ 16 := by exact_mod_cast hlt.le
  rw [Numeral.value, hsignificand, hexponent, zpow_neg_one]
  push_cast
  linarith

theorem ofDigits_take_drop (n k : ℕ) : ofDigits ((digits n).take k ++ (digits n).drop k) = n := by
  rw [List.take_append_drop, ofDigits_digits]

theorem positionalText_numeral {s : Scaled} (h : s.IsBounded)
    (hpower : s.exponent + ((digits s.digits).length : ℤ) - 1 < 16) :
    ∃ n : Numeral, positionalText true s = n.text ∧ n.IsBounded := by
  have hfits : s.digits ≤ maxUnsigned64 := h.digits_le.trans (by decide)
  have hlength := length_digits_pos s.digits
  unfold positionalText
  by_cases hexponent : 0 ≤ s.exponent
  · have hdigits := digits_mul_tenPow h.pos s.exponent.toNat
    have hsize := congrArg List.length hdigits
    rw [List.length_append, List.length_replicate] at hsize
    have hlt : s.digits * tenPow s.exponent.toNat < 10 ^ 16 :=
      (length_digits_le_iff (by decide)).mp (by omega)
    have hten : 10 * (s.digits * tenPow s.exponent.toNat) ≤ maxUnsigned64 := by
      rw [maxUnsigned64]
      omega
    refine ⟨wholeNumeral _ hten, ?_, wholeNumeral_isBounded hten hlt⟩
    rw [if_pos hexponent, if_neg h.pos.ne', if_pos rfl, ← hdigits]
    rfl
  · obtain ⟨places, hplaces⟩ : ∃ places, (-s.exponent).toNat = places := ⟨_, rfl⟩
    rw [if_neg hexponent, hplaces]
    by_cases hshort : places < (digits s.digits).length
    · have hne : (digits s.digits).drop ((digits s.digits).length - places) ≠ [] := by
        rw [ne_eq, List.drop_eq_nil_iff]
        omega
      refine ⟨⟨_, _, none, isWholePart_take h.pos (by omega),
        fun c hc => isDigit_of_mem_digits (List.mem_of_mem_drop hc), Or.inl hne,
        (ofDigits_take_drop _ _).trans_le hfits, fun e he => absurd he (Option.not_mem_none e)⟩,
        ?_, Numeral.isBounded_of_scaled h
        (ofDigits_take_drop _ _) ?_⟩
      · rw [if_pos hshort, Numeral.text, fractionText_of_ne_nil hne, Numeral.powerText,
          List.append_nil]
      · rw [Numeral.exponent, Option.getD_none, List.length_drop]
        omega
    · have hne : List.replicate (places - (digits s.digits).length) '0' ++ digits s.digits ≠ [] :=
        List.append_ne_nil_of_right_ne_nil _ (digits_ne_nil _)
      have hvalue : ofDigits (['0'] ++ (List.replicate (places - (digits s.digits).length) '0' ++
          digits s.digits)) = s.digits := by
        rw [ofDigits_eq_ofDigitChars, Nat.ofDigitChars_append, Nat.ofDigitChars_append,
          show Nat.ofDigitChars 10 ['0'] 0 = 0 from rfl, Nat.ofDigitChars_replicate_zero,
          Nat.mul_zero]
        exact ofDigits_digits s.digits
      refine ⟨⟨['0'], _, none, isWholePart_digits 0, fun c hc => ?_, Or.inl hne,
        hvalue.trans_le hfits, fun e he => absurd he (Option.not_mem_none e)⟩, ?_,
        Numeral.isBounded_of_scaled h hvalue ?_⟩
      · exact isDigit_of_mem_paddedDigits hc
      · rw [if_neg hshort, Numeral.text, fractionText_of_ne_nil hne, Numeral.powerText,
          List.append_nil]
        rfl
      · rw [Numeral.exponent, Option.getD_none, List.length_append, List.length_replicate]
        omega

theorem exponentText_numeral {s : Scaled} (h : s.IsBounded) :
    ∃ n : Numeral, exponentText s = n.text ∧ n.IsBounded := by
  have hfits : s.digits ≤ maxUnsigned64 := h.digits_le.trans (by decide)
  have hlength := length_digits_pos s.digits
  have hlength' := h.length_le
  have hlow := h.exponent_ge
  have hhigh := h.exponent_le
  obtain ⟨power, hpower⟩ :
      ∃ power, power = s.exponent + ((digits s.digits).length : ℤ) - 1 := ⟨_, rfl⟩
  have hfraction : (if 1 < (digits s.digits).length then '.' :: (digits s.digits).drop 1 else []) =
      Numeral.fractionText ((digits s.digits).drop 1) := by
    split_ifs with hmore
    · refine (fractionText_of_ne_nil ?_).symm
      rw [ne_eq, List.drop_eq_nil_iff]
      omega
    · rw [List.drop_eq_nil_of_le (by omega)]
      rfl
  refine ⟨⟨_, _, some power, isWholePart_take h.pos Nat.one_pos,
    fun c hc => isDigit_of_mem_digits (List.mem_of_mem_drop hc), Or.inr (Option.some_ne_none _),
    (ofDigits_take_drop _ _).trans_le hfits, ?_⟩, ?_, Numeral.isBounded_of_scaled h
    (ofDigits_take_drop _ _) ?_⟩
  · intro p hp
    obtain rfl := Option.some.inj hp
    rw [maxExponent]
    omega
  · rw [exponentText, hfraction, ← hpower, Numeral.text, Numeral.powerText, List.append_assoc]
  · rw [Numeral.exponent, Option.getD_some, List.length_drop]
    omega

/-- **Every finite double is written as a numeral.** -/
theorem renderFinite_numeral {d : Binary} (hlt : d.mantissa < 2 ^ 53) (he : d.exponent ≤ 971) :
    ∃ n : Numeral, doubleLayout.renderFinite d = n.text ∧ n.IsBounded := by
  obtain ⟨m, e⟩ := d
  rcases Nat.eq_zero_or_pos m with rfl | hm
  · have hten : 10 * 0 ≤ maxUnsigned64 := by decide
    exact ⟨wholeNumeral 0 hten, renderFinite_zero e, wholeNumeral_isBounded hten (by decide)⟩
  · have hbounded := shortest_isBounded hm hlt he
    have hpos := hbounded.pos
    unfold Layout.renderFinite doubleLayout
    dsimp only
    generalize shortest .toEven ⟨m, e⟩ = s at hbounded hpos ⊢
    by_cases hpositional : s.digits = 0 ∨ -5 ≤ s.exponent + ((digits s.digits).length : ℤ) - 1 ∧
        s.exponent + ((digits s.digits).length : ℤ) - 1 < 16
    · rw [if_pos hpositional]
      exact positionalText_numeral hbounded (hpositional.resolve_left hpos.ne').2
    · rw [if_neg hpositional]
      exact exponentText_numeral hbounded

/-! ### Scaling -/

theorem scaleDown_upTo {a : ℚ} {x : Float} (h : UpTo a x) (n : ℕ) : UpTo a (scaleDown x n) := by
  induction x, n using scaleDown.induct with
  | case1 x n hn =>
      rw [scaleDown, if_pos hn]
      exact h.divideBy (tenPow_pos n)
  | case2 x n hn hzero =>
      rw [scaleDown, if_neg hn, if_pos hzero]
      exact h
  | case3 x n hn hzero ih =>
      rw [scaleDown, if_neg hn, if_neg hzero]
      exact ih (h.divideBy (tenPow_pos 308))

/-- The largest digits that are scaled up by a power of ten. -/
def largestDigits (n : ℕ) : ℕ := min (10 ^ 17) (17976931348623157 * 10 ^ 292 / 10 ^ n)

/-- At the end of the range even the largest digits are scaled up without leaving it. -/
theorem scaled_isFinite : ∀ n < 309, 290 ≤ n →
    (Decimal.ofNat (largestDigits n)).isFinite = true ∧ (powerOfTen n).isFinite = true ∧
      (Decimal.ofNat (largestDigits n) * powerOfTen n).isFinite = true := by
  decide +kernel

theorem tenPow_le_tenPow {n k : ℕ} (h : n ≤ k) : tenPow n ≤ tenPow k :=
  Nat.pow_le_pow_right (by decide) h

/-- Digits that are scaled up are no more than the largest, and where the power of ten is small,
neither the digits nor the power of ten are more than those at the end of the range. -/
theorem scaled_lt {v n : ℕ} (hv : v ≤ 10 ^ 17) (hn : n ≤ 308)
    (hvalue : (v : ℚ) * 10 ^ n ≤ largestShortest) :
    rounded (rounded v * rounded (tenPow n)) < 2 ^ (1024 : ℤ) := by
  obtain ⟨k, hnk, hk, hk', hlargest⟩ : ∃ k, n ≤ k ∧ k < 309 ∧ 290 ≤ k ∧ v ≤ largestDigits k := by
    rcases le_or_gt n 290 with hle | hgt
    · have hlargest : largestDigits 290 = 10 ^ 17 := by decide +kernel
      exact ⟨290, hle, by decide, le_rfl, hlargest ▸ hv⟩
    · refine ⟨n, le_rfl, by omega, hgt.le, le_min hv ?_⟩
      rw [Nat.le_div_iff_mul_le (Nat.pow_pos (by decide))]
      have hlimit : largestShortest = ((17976931348623157 * 10 ^ 292 : ℕ) : ℚ) := by decide +kernel
      rw [hlimit] at hvalue
      exact_mod_cast hvalue
  obtain ⟨hdigits, hpower, hproduct⟩ := scaled_isFinite k hk hk'
  have hlt := abs_rounded_mul_lt hdigits hpower hproduct
  rw [(value_ofNat (rounded_lt_of_isFinite hdigits)).2, powerOfTen,
    (value_ofNat (rounded_lt_of_isFinite hpower)).2] at hlt
  refine lt_of_le_of_lt (rounded_mono ?_) ((le_abs_self _).trans_lt hlt)
  have hten : tenPow n ≤ tenPow k := tenPow_le_tenPow hnk
  exact mul_le_mul (rounded_mono (by exact_mod_cast hlargest)) (rounded_mono (by exact_mod_cast hten))
    (rounded_nonneg (Nat.cast_nonneg _)) (rounded_nonneg (Nat.cast_nonneg _))

theorem isInf_of_isFinite {x : Float} (h : x.isFinite = true) : x.isInf = false := by
  show x.toModel.unpack.isInf = false
  rcases zero_or_finite h with ⟨s, hx⟩ | ⟨s, m, e, hm, hx⟩ <;> rw [hx] <;> rfl

theorem upTo_ofNat {n : ℕ} (h : rounded n < 2 ^ (1024 : ℤ)) : UpTo (rounded n) (Decimal.ofNat n) := by
  obtain ⟨hfinite, hvalue⟩ := value_ofNat h
  exact ⟨hfinite, hvalue ▸ rounded_nonneg (Nat.cast_nonneg n), hvalue.le⟩

theorem rounded_digits_lt {v : ℕ} (hv : v ≤ 10 ^ 17) : rounded v < 2 ^ (1024 : ℤ) := by
  have hle : (v : ℚ) ≤ 2 ^ (57 : ℤ) := by
    have : v ≤ 2 ^ 57 := hv.trans (by decide)
    exact_mod_cast this
  exact (rounded_le hle (onGrid_two_zpow (by norm_num))).trans_lt
    (zpow_lt_zpow_right₀ (by norm_num) (by norm_num))

theorem scaleUp?_ok {v n : ℕ} (hv : v ≤ 10 ^ 17) (hn : n ≤ 308)
    (hvalue : (v : ℚ) * 10 ^ n ≤ largestShortest) :
    ∃ y, scaleUp? (Decimal.ofNat v) n = some y ∧ Traffic.isValid.ok y = true := by
  have hdigits := upTo_ofNat (rounded_digits_lt hv)
  have hpower : rounded (tenPow n) < 2 ^ (1024 : ℤ) := by
    have hten : tenPow n ≤ tenPow 308 := tenPow_le_tenPow hn
    exact (rounded_mono (by exact_mod_cast hten)).trans_lt
      (rounded_lt_of_isFinite (scaled_isFinite 308 (by decide) (by decide)).2.1)
  have hscale := upTo_ofNat hpower
  have hlow :
      0 ≤ rounded (Decimal.value (Decimal.ofNat v) * Decimal.value (Decimal.ofNat (tenPow n))) :=
    rounded_nonneg (mul_nonneg hdigits.nonneg hscale.nonneg)
  obtain ⟨hfinite, hproduct⟩ := value_mul hdigits.isFinite hscale.isFinite (by
    rw [abs_of_nonneg hlow, (value_ofNat hpower).2, (value_ofNat (rounded_digits_lt hv)).2]
    exact scaled_lt hv hn hvalue)
  refine ⟨Decimal.ofNat v * powerOfTen n, ?_, ok_iff.mpr ⟨hfinite, hproduct ▸ hlow⟩⟩
  rw [scaleUp?, if_pos hn]
  exact if_neg (by rw [powerOfTen, isInf_of_isFinite hfinite]; decide)

/-- A bounded numeral is read as a valid count, or as this below zero. -/
theorem Numeral.IsBounded.real {n : Numeral} (h : n.IsBounded) :
    ∃ y, Traffic.isValid.ok y = true ∧
      ∀ negative, Json.real negative n.significand n.exponent = .ok (if negative then -y else y) := by
  by_cases hexponent : 0 ≤ n.exponent
  · obtain ⟨power, hpower⟩ := Int.eq_ofNat_of_zero_le hexponent
    have hvalue := h.value_le
    rw [Numeral.value, hpower, zpow_natCast] at hvalue
    have hle := h.exponent_le
    obtain ⟨y, hy, hok⟩ := scaleUp?_ok h.significand_le (by omega) hvalue
    refine ⟨y, hok, fun negative => ?_⟩
    rw [Json.real, if_pos hexponent, hpower, Int.toNat_natCast, hy]
  · have hdown := scaleDown_upTo (upTo_ofNat (rounded_digits_lt h.significand_le))
      n.exponent.natAbs
    refine ⟨_, hdown.ok, fun negative => ?_⟩
    rw [Json.real, if_neg hexponent]

/-! ### Doubles read back -/

/-- A count below zero is the zero with a sign. -/
theorem isWhole_of_negative {x : Float} (hok : Traffic.isValid.ok x = true)
    (hneg : negative x = true) : IsWhole x 0 := by
  obtain ⟨hfinite, hvalue⟩ := ok_iff.mp hok
  have hmagnitude := magnitude_eq x
  unfold Decimal.value at hvalue
  rcases zero_or_finite hfinite with ⟨s, hx⟩ | ⟨s, m, e, hm, hx⟩
  · rw [hx] at hmagnitude
    exact ⟨_, hmagnitude, by rw [Binary.num, Nat.zero_mul, Nat.zero_mul]⟩
  · obtain rfl := (negative_iff hx).mp hneg
    rw [hx] at hvalue
    exact absurd hvalue (not_le.mpr (neg_lt_zero.mpr
      (mul_pos (Nat.cast_pos.mpr hm) (two_zpow_pos e))))

theorem endsNumber_nil : EndsNumber [] := fun _ h => nomatch h

/-- The double is read where the other one is written, whatever follows it. -/
def ReadsAs (x y : Float) : Prop :=
  ∀ rest, EndsNumber rest → readNumber (doubleText x ++ rest) = .ok (.real y, rest) ∧
    skipNumber (doubleText x ++ rest) = .ok rest

/-- **Every finite double is read back as one**, and every valid count as a valid count. -/
theorem exists_readsAs {x : Float} (h : x.isFinite = true) :
    ∃ y, ReadsAs x y ∧ y.isFinite = true ∧
      (Traffic.isValid.ok x = true → Traffic.isValid.ok y = true) := by
  obtain ⟨d, hd, hlt, he⟩ := magnitude_of_isFinite h
  obtain ⟨n, hn, hbounded⟩ := renderFinite_numeral hlt he
  obtain ⟨y, hok, hreal⟩ := hbounded.real
  have htext (rest : List Char) :
      doubleText x ++ rest = (if negative x then ['-'] else []) ++ (n.text ++ rest) := by
    simp only [doubleText, Layout.render, hd]
    rw [hn, List.append_assoc]
  have hreads : ReadsAs x (if negative x then -y else y) := by
    intro rest hrest
    rw [htext]
    refine ⟨?_, n.skipNumber_text _ hrest⟩
    rw [n.readNumber_text _ hrest, hreal]
    rfl
  refine ⟨_, hreads, ?_, fun hx => ?_⟩
  · split_ifs
    · exact isFinite_neg (ok_iff.mp hok).1
    · exact (ok_iff.mp hok).1
  · cases hneg : negative x with
    | false => exact hok
    | true =>
        -- what is read is the zero itself
        have hzero := readNumber_doubleText (isWhole_of_negative hx hneg) (by decide) endsNumber_nil
        have hread := (hreads [] endsNumber_nil).1
        rw [hzero, hneg] at hread
        injection hread with hread
        injection hread with hread
        injection hread with hread
        exact hread ▸ hx

/-- The double that is read where this one is written. -/
def rereadDouble (x : Float) : Float :=
  match readNumber (doubleText x) with
  | .ok (.real y, _) => y
  | _ => x

theorem ReadsAs.rereadDouble_eq {x y : Float} (h : ReadsAs x y) : rereadDouble x = y := by
  have hread := (h [] endsNumber_nil).1
  rw [List.append_nil] at hread
  rw [rereadDouble, hread]

theorem readsAs_rereadDouble {x : Float} (h : x.isFinite = true) : ReadsAs x (rereadDouble x) := by
  obtain ⟨y, hreads, -⟩ := exists_readsAs h
  rwa [hreads.rereadDouble_eq]

theorem ok_rereadDouble {x : Float} (h : Traffic.isValid.ok x = true) :
    Traffic.isValid.ok (rereadDouble x) = true := by
  obtain ⟨y, hreads, -, hok⟩ := exists_readsAs (ok_iff.mp h).1
  rw [hreads.rereadDouble_eq]
  exact hok h

theorem rereadDouble_whole {x : Float} {n : ℕ} (h : IsWhole x n) (hlt : n < 2 ^ 49) :
    rereadDouble x = x := by
  have hread := readNumber_doubleText h hlt endsNumber_nil
  rw [List.append_nil] at hread
  rw [rereadDouble, hread]

theorem doubleText_of_not_isFinite {x : Float} (h : x.isFinite = false) :
    doubleText x = "null".toList := by
  have hfinite : ¬ x.toModel.unpack.isFinite = true := Bool.eq_false_iff.mp h
  rcases infinity_or_notANumber hfinite with ⟨s, hx⟩ | hx <;>
    rw [doubleText, magnitude_eq, hx] <;> rfl

end Json

end RouteTraffic
