import RouteTraffic.Decimal.Numeral
import RouteTraffic.Proofs.DecimalDigits
import RouteTraffic.Proofs.DoubleValues

/-! # Numerals as texts

A decimal is read as the double nearest to it, up to the end of the range (`value_toFloat`): the
powers of ten that are not computed lie where every number is rounded to zero, or beyond every
double.

A text that is read as a finite number ends in a digit or in a point (`float?_endsNumeral`).  The
other texts that are read end in a letter, and are infinities or no numbers. -/

namespace RouteTraffic.Decimal

open Text

/-! ### The value of a numeral -/

/-- The magnitude that a numeral stands for. -/
def Numeral.value (n : Numeral) : ℚ := n.digits * 10 ^ n.exponent

/-- The power of ten above a numeral. -/
def Numeral.power (n : Numeral) : ℤ := n.exponent + (Text.digits n.digits).length

theorem Numeral.value_lt (n : Numeral) : n.value < 10 ^ n.power := by
  have hdigits : n.digits < 10 ^ (Text.digits n.digits).length :=
    (length_digits_le_iff (length_digits_pos _)).mp le_rfl
  have hcast : (n.digits : ℚ) < 10 ^ ((Text.digits n.digits).length : ℤ) := by exact_mod_cast hdigits
  rw [value, power, add_comm, zpow_add₀ (by norm_num)]
  exact mul_lt_mul_of_pos_right hcast (zpow_pos (by norm_num) _)

theorem Numeral.le_value {n : Numeral} (h : 0 < n.digits) : 10 ^ (n.power - 1) ≤ n.value := by
  have hdigits : 10 ^ ((Text.digits n.digits).length - 1) ≤ n.digits := by
    rcases Nat.eq_zero_or_pos ((Text.digits n.digits).length - 1) with hone | hmore
    · rw [hone]
      exact h
    · by_contra hlt
      have := (length_digits_le_iff hmore).mpr (not_le.mp hlt)
      omega
  have hcast : (10 : ℚ) ^ (((Text.digits n.digits).length - 1 : ℕ) : ℤ) ≤ n.digits := by
    exact_mod_cast hdigits
  have hlength := length_digits_pos n.digits
  have hpower : n.power - 1 = ((Text.digits n.digits).length - 1 : ℕ) + n.exponent := by
    rw [power]
    omega
  rw [value, hpower, zpow_add₀ (by norm_num)]
  exact mul_le_mul_of_nonneg_right hcast (zpow_pos (by norm_num) _).le

theorem rounded_eq_zero {q : ℚ} (hq : 0 ≤ q) (h : 4 * q < 2 ^ (-1074 : ℤ)) : rounded q = 0 := by
  have hlarge : |q| < 2 ^ (-1074 + 53 : ℤ) := by
    rw [abs_of_nonneg hq]
    refine lt_of_le_of_lt ?_ (h.trans (zpow_lt_zpow_right₀ (by norm_num) (by norm_num)))
    linarith
  have hunit := two_zpow_pos (-1074)
  rw [rounded_eq hlarge (Or.inl rfl)]
  generalize (2 : ℚ) ^ (-1074 : ℤ) = unit at h hunit
  have hlow : 0 ≤ q / unit := div_nonneg hq hunit.le
  have hquarter : q / unit < 1 / 4 := by
    rw [div_lt_iff₀ hunit]
    linarith
  obtain ⟨hbelow, habove⟩ := abs_le.mp (roundEven_near (q / unit))
  have hlt : (roundEven (q / unit) : ℚ) < 1 := by linarith
  have hgt : (-1 : ℚ) < roundEven (q / unit) := by linarith
  have hzero : roundEven (q / unit) = 0 := by
    have : roundEven (q / unit) < 1 := by exact_mod_cast hlt
    have : -1 < roundEven (q / unit) := by exact_mod_cast hgt
    omega
  rw [hzero, Int.cast_zero, zero_mul]

/-- **A decimal is read as the double nearest to it.** -/
theorem Numeral.value_toFloat {n : Numeral} (h : rounded n.value < 2 ^ (1024 : ℤ)) :
    n.toFloat.isFinite = true ∧
      Decimal.value n.toFloat = withSign (signOf n.negative) (rounded n.value) := by
  have hpower : n.exponent + ((Text.digits n.digits).length : ℤ) = n.power := rfl
  rw [toFloat, hpower]
  split_ifs with hsmall hlarge
  · have hzero : rounded n.value = 0 := by
      refine rounded_eq_zero (mul_nonneg (Nat.cast_nonneg _) (zpow_pos (by norm_num) _).le) ?_
      rcases hsmall with hdigits | hlow
      · rw [value, hdigits, Nat.cast_zero, zero_mul, mul_zero]
        exact two_zpow_pos _
      · have hten : (4 : ℚ) * 10 ^ (-331 : ℤ) < 2 ^ (-1074 : ℤ) := by decide +kernel
        have hlt : n.value < 10 ^ (-331 : ℤ) :=
          n.value_lt.trans_le (zpow_le_zpow_right₀ (by norm_num) (by omega))
        exact (mul_lt_mul_of_pos_left hlt (by norm_num)).trans hten
    have hnone : rounded ((0 : ℕ) / (1 : ℕ)) = 0 := by
      rw [Nat.cast_zero, zero_div, rounded_of_onGrid onGrid_zero]
    rw [hzero, ← hnone]
    exact value_nearest n.negative Nat.one_pos (hnone.trans_lt (two_zpow_pos _))
  · refine absurd h (not_lt.mpr (le_rounded ?_ (onGrid_two_zpow (by norm_num))))
    have hten : (2 : ℚ) ^ (1024 : ℤ) ≤ 10 ^ (310 : ℤ) := by decide +kernel
    refine hten.trans (le_trans (zpow_le_zpow_right₀ (by norm_num) (by omega)) (le_value ?_))
    exact Nat.pos_of_ne_zero fun hdigits => hsmall (Or.inl hdigits)
  · have hvalue : n.value =
        (n.digits * tenPow n.exponent.toNat : ℕ) / (tenPow (-n.exponent).toNat : ℕ) := by
      rw [value, zpow_eq_div (by norm_num) n.exponent, tenPow_eq, tenPow_eq]
      push_cast
      rw [mul_div_assoc]
    rw [hvalue] at h ⊢
    exact value_nearest n.negative (tenPow_pos _) h

/-! ### Where numerals end -/

/-- The text ends in a digit or in a point. -/
def EndsNumeral (cs : List Char) : Prop := ∃ c ∈ cs.getLast?, isDigit c = true ∨ c = '.'

theorem EndsNumeral.append {cs : List Char} (h : EndsNumeral cs) (front : List Char) :
    EndsNumeral (front ++ cs) := by
  obtain ⟨c, hc, hend⟩ := h
  exact ⟨c, List.mem_getLast?_append_of_mem_getLast? hc, hend⟩

theorem endsNumeral_of_digits {ds : List Char} (hne : ds ≠ []) (h : ∀ c ∈ ds, isDigit c = true) :
    EndsNumeral ds :=
  ⟨ds.getLast hne, List.getLast?_eq_some_getLast hne, Or.inl (h _ (List.getLast_mem hne))⟩

theorem exponentPart?_endsNumeral {cs : List Char} {e : ℤ} (h : exponentPart? cs = some e) :
    cs = [] ∨ EndsNumeral cs := by
  have hdigits {negative : Bool} {ds : List Char} (h : (if ds = [] || !ds.all isDigit then none
      else some (if negative then -(ofDigits ds : ℤ) else ofDigits ds)) = some e) :
      EndsNumeral ds := by
    split at h
    case isTrue => cases h
    case isFalse hds =>
      simp only [Bool.or_eq_true, decide_eq_true_eq, Bool.not_eq_true', not_or,
        Bool.not_eq_false, List.all_eq_true] at hds
      exact endsNumeral_of_digits hds.1 hds.2
  unfold exponentPart? at h
  split at h
  case h_1 => exact Or.inl rfl
  case h_2 c rest =>
    right
    split at h
    case isTrue =>
      dsimp only at h
      split at h
      case h_1 ds => exact (hdigits h).append [c, '-']
      case h_2 ds => exact (hdigits h).append [c, '+']
      case h_3 => exact (hdigits h).append [c]
    case isFalse => cases h

theorem unsignedNumeral?_endsNumeral {negative : Bool} {cs : List Char} {n : Numeral}
    (h : unsignedNumeral? negative cs = some n) : EndsNumeral cs := by
  have hwhole {c : Char} (hc : c ∈ cs.takeWhile isDigit) : isDigit c = true :=
    List.mem_takeWhile_imp hc
  rw [← List.takeWhile_append_dropWhile (p := isDigit) (l := cs)]
  unfold unsignedNumeral? at h
  dsimp only at h
  generalize cs.takeWhile isDigit = whole at h hwhole ⊢
  have hend {fraction tail : List Char} (h : (if whole = [] && fraction = [] then none
      else (exponentPart? tail).map fun e =>
        (⟨negative, ofDigits (whole ++ fraction), e - fraction.length⟩ : Numeral)) = some n) :
      (whole ≠ [] ∨ fraction ≠ []) ∧ (tail = [] ∨ EndsNumeral tail) := by
    split at h
    case isTrue => cases h
    case isFalse hne =>
      obtain ⟨e, he, -⟩ := Option.map_eq_some_iff.mp h
      refine ⟨?_, exponentPart?_endsNumeral he⟩
      rw [Bool.and_eq_true, decide_eq_true_eq, decide_eq_true_eq] at hne
      exact not_and_or.mp hne
  split at h
  case h_1 rest hrest =>
    rw [hrest, ← List.takeWhile_append_dropWhile (p := isDigit) (l := rest)]
    obtain ⟨-, hnil | htail⟩ := hend h
    · rw [show rest.dropWhile isDigit = [] from hnil, List.append_nil]
      rcases eq_or_ne (rest.takeWhile isDigit) [] with hnone | hsome
      · rw [hnone]
        exact EndsNumeral.append ⟨'.', rfl, Or.inr rfl⟩ whole
      · have hfraction := endsNumeral_of_digits hsome fun c hc => List.mem_takeWhile_imp hc
        exact (hfraction.append ['.']).append whole
    · exact ((htail.append _).append ['.']).append whole
  case h_2 =>
    obtain ⟨hne, hnil | htail⟩ := hend h
    · rw [show cs.dropWhile isDigit = [] from hnil, List.append_nil]
      exact endsNumeral_of_digits (hne.resolve_right (not_not.mpr rfl)) fun c hc => hwhole hc
    · exact htail.append whole

theorem unsignedFloat?_endsNumeral {negative : Bool} {cs : List Char} {x : Float}
    (h : unsignedFloat? negative cs = some x) (hx : x.isFinite = true) : EndsNumeral cs := by
  unfold unsignedFloat? at h
  split at h
  case h_1 n hn => exact unsignedNumeral?_endsNumeral hn
  case h_2 =>
    -- the words are no finite numbers
    dsimp only at h
    split_ifs at h <;> obtain rfl := Option.some.inj h <;> cases negative <;> cases hx

/-- What is read as a finite number ends in a digit or in a point. -/
theorem float?_endsNumeral {cs : List Char} {x : Float} (h : float? cs = .ok x)
    (hx : x.isFinite = true) : EndsNumeral cs := by
  unfold float? at h
  dsimp only at h
  split at h
  case h_1 x' hresult =>
    obtain rfl := Except.ok.inj h
    split at hresult
    · cases hresult
    · exact (unsignedFloat?_endsNumeral hresult hx).append ['-']
    · exact (unsignedFloat?_endsNumeral hresult hx).append ['+']
    · exact unsignedFloat?_endsNumeral hresult hx
  case h_2 => cases h

end RouteTraffic.Decimal
