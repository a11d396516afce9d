import RouteTraffic.Proofs.RoundedRationals
import RouteTraffic.Proofs.SumsOfDoubles

/-! # Arithmetic of doubles

The sum, the difference, the product and the quotient of two finite doubles are the exact ones,
rounded (`value_add` and the lemmas beside it), as long as these stay below the end of the range. -/

namespace RouteTraffic.Decimal

open Float.Model (Format)
open Float.Model.UnpackedFloat

/-! ### Bits beyond the mantissa -/

/-- Twice the mantissa, with its round bit. -/
def halves (em : ExtendedMantissa) : ℕ := 2 * em.mantissa + em.roundBit.toNat

/-- The mantissa and its bits stand for a number: they show its halves, and whether anything is left
of it below them. -/
structure StandsFor (em : ExtendedMantissa) (q : ℚ) : Prop where
  le : (halves em : ℚ) ≤ 2 * q
  lt : 2 * q < halves em + 1
  exact : em.stickyBit = false ↔ 2 * q = halves em

theorem standsFor_exact (m : ℕ) :
    StandsFor (ExtendedMantissa.ofMantissaAndAccuracy m .exact) m := by
  constructor <;> simp [halves, ExtendedMantissa.ofMantissaAndAccuracy]

theorem StandsFor.shiftRightOne {em : ExtendedMantissa} {q : ℚ} (h : StandsFor em q) :
    StandsFor em.shiftRightOne (q / 2) := by
  obtain ⟨hle, hlt, hexact⟩ := h
  have hhalves : halves em.shiftRightOne = em.mantissa := by
    simp only [halves, ExtendedMantissa.shiftRightOne]
    rcases Nat.mod_two_eq_zero_or_one em.mantissa with hm | hm <;> simp [hm] <;> omega
  have hcast : (halves em : ℚ) = 2 * em.mantissa + (em.roundBit.toNat : ℚ) := by
    simp [halves]
  rw [hcast] at hle hlt hexact
  constructor
  · rw [hhalves]
    have : (0 : ℚ) ≤ (em.roundBit.toNat : ℚ) := Nat.cast_nonneg _
    linarith
  · rw [hhalves]
    cases hr : em.roundBit <;> simp [hr] at hlt <;> linarith
  · rw [hhalves]
    cases hr : em.roundBit with
    | false =>
        simp only [ExtendedMantissa.shiftRightOne, hr, Bool.false_or, hexact]
        simp only [Bool.toNat_false, Nat.cast_zero]
        constructor <;> intro h <;> linarith
    | true =>
        simp only [ExtendedMantissa.shiftRightOne, hr, Bool.true_or, Bool.true_eq_false,
          false_iff]
        simp [hr] at hle
        intro h
        linarith

theorem StandsFor.shiftRight {em : ExtendedMantissa} {q : ℚ} (h : StandsFor em q) (j : ℕ) :
    StandsFor (em >>> j) (q / 2 ^ j) := by
  induction j with
  | zero =>
      rw [pow_zero, div_one]
      exact h
  | succ j ih =>
      have hstep := ih.shiftRightOne
      rwa [div_div, ← pow_succ] at hstep

/-- The bits decide how a mantissa is rounded. -/
theorem StandsFor.roundedMantissa {em : ExtendedMantissa} {q : ℚ} (h : StandsFor em q) :
    (em.roundedMantissa : ℤ) = roundEven q := by
  obtain ⟨hle, hlt, hexact⟩ := h
  obtain ⟨m, r, s⟩ := em
  have hfloor : ⌊q⌋ = m := by
    rw [Int.floor_eq_iff]
    cases r <;> simp [halves] at hle hlt <;> constructor <;> push_cast <;> linarith
  have hfract : Int.fract q = q - m := by rw [Int.fract, hfloor, Int.cast_natCast]
  have hrounded : (ExtendedMantissa.mk m r s).roundedMantissa =
      match r, s with
      | false, _ => m
      | true, false => m + m % 2
      | true, true => m + 1 := by
    cases r <;> cases s <;> rfl
  rw [hrounded, roundEven, hfloor, hfract]
  cases r with
  | false =>
      have hbelow : 2 * (q - m) < 1 := by
        simp [halves] at hlt
        linarith
      rw [if_pos hbelow]
  | true =>
      have hle' : 1 ≤ 2 * (q - m) := by
        simp [halves] at hle
        linarith
      cases s with
      | false =>
          have htie : 2 * (q - m) = 1 := by
            simp [halves] at hexact
            linarith
          rw [if_neg (by linarith), if_neg (by linarith)]
          push_cast
          split_ifs with heven <;> omega
      | true =>
          have habove : 1 < 2 * (q - m) := by
            refine lt_of_le_of_ne hle' fun htie => ?_
            simp [halves] at hexact
            exact hexact (by linarith)
          rw [if_neg (by linarith), if_pos habove]
          push_cast
          rfl

theorem StandsFor.floor {em : ExtendedMantissa} {q : ℚ} (h : StandsFor em q) :
    (em.mantissa : ℚ) ≤ q ∧ q < em.mantissa + 1 := by
  obtain ⟨hle, hlt, -⟩ := h
  cases hr : em.roundBit <;> simp [halves, hr] at hle hlt <;> constructor <;> linarith

/-! ### Rounding -/

/-- A number with a sign. -/
def withSign (s : Sign) (q : ℚ) : ℚ :=
  match s with
  | .negative => -q
  | .positive => q

/-- The number that an unpacked double stands for; infinities and what is no number stand for
zero. -/
def exactValue : Float.Model.UnpackedFloat → ℚ
  | .finite s m e _ => withSign s (m * 2 ^ e)
  | .zero _ | .infinity _ | .notANumber => 0

@[simp] theorem exactValue_finite (s : Sign) (m : ℕ) (e : ℤ) (hm : 0 < m) :
    exactValue (.finite s m e hm) = withSign s (m * 2 ^ e) := rfl

@[simp] theorem exactValue_zero (s : Sign) : exactValue (.zero s) = 0 := rfl

theorem zero_or_finite {x : Float.Model.UnpackedFloat} (h : x.isFinite = true) :
    (∃ s, x = .zero s) ∨ ∃ s m e hm, x = .finite s m e hm := by
  cases x with
  | zero s => exact Or.inl ⟨s, rfl⟩
  | finite s m e hm => exact Or.inr ⟨s, m, e, hm, rfl⟩
  | _ => cases h

theorem infinity_or_notANumber {x : Float.Model.UnpackedFloat} (h : ¬ x.isFinite = true) :
    (∃ s, x = .infinity s) ∨ x = .notANumber := by
  cases x with
  | infinity s => exact Or.inl ⟨s, rfl⟩
  | notANumber => exact Or.inr rfl
  | _ => exact absurd rfl h

/-- The mantissa has 53 bits, or fewer at the lower end of the exponents. -/
def Canonical : Float.Model.UnpackedFloat → Prop
  | .finite _ m e _ => m < 2 ^ 53 ∧ -1074 ≤ e ∧ (2 ^ 52 ≤ m ∨ e = -1074)
  | _ => True

/-- The double is in canonical form and stands for a number, whatever its size. -/
structure IsRounded (x : Float.Model.UnpackedFloat) (q : ℚ) : Prop where
  canonical : Canonical x
  isFinite : x.isFinite = true
  exact : exactValue x = q

/-- The first shift leads to the last place of the number. -/
theorem shiftToTarget_standsFor {m : ℕ} {e : ℤ} {accuracy : Accuracy} {q : ℚ}
    (h : StandsFor (ExtendedMantissa.ofMantissaAndAccuracy m accuracy) q)
    (he : e ≤ max (m.log2 + 1 + e - 53) (-1074)) :
    ∃ em t, shiftToTargetExponent Format.binary64 m e accuracy = (em, t) ∧
      StandsFor em (q * 2 ^ e / 2 ^ t) ∧ q * 2 ^ e < 2 ^ (t + 53) ∧
      (t = -1074 ∨ -1074 ≤ t ∧ 2 ^ (t + 52) ≤ q * 2 ^ e) := by
  obtain ⟨t, ht⟩ : ∃ t : ℤ, max (m.log2 + 1 + e - 53) (-1074) = t := ⟨_, rfl⟩
  rw [ht] at he
  obtain ⟨j, hj⟩ := Int.le.dest he
  have hshift : shiftToTargetExponent Format.binary64 m e accuracy =
      (ExtendedMantissa.ofMantissaAndAccuracy m accuracy >>> j, t) := by
    have htarget : Format.binary64.targetExponent (Float.Model.totalExponent m e) = t := ht
    rw [shiftToTargetExponent, htarget, shiftToExponent, show (t - e).toNat = j by omega, hj]
  have hscale : q / 2 ^ j = q * 2 ^ e / 2 ^ t := by
    rw [← hj, zpow_add₀ (by norm_num), zpow_natCast]
    field_simp
  obtain ⟨hlow, hhigh⟩ := h.floor
  rw [ofMantissaAndAccuracy_mantissa] at hlow hhigh
  have hpos := two_zpow_pos e
  refine ⟨_, t, hshift, hscale ▸ h.shiftRight j, ?_, ?_⟩
  · have hm : (m : ℚ) + 1 ≤ 2 ^ (m.log2 + 1) := by exact_mod_cast Nat.lt_log2_self
    calc q * 2 ^ e < 2 ^ (m.log2 + 1) * 2 ^ e := mul_lt_mul_of_pos_right (by linarith) hpos
      _ = 2 ^ ((m.log2 + 1 : ℕ) + e : ℤ) := by rw [zpow_add₀ (by norm_num), zpow_natCast]
      _ ≤ 2 ^ (t + 53) := zpow_le_zpow_right₀ (by norm_num) (by push_cast; omega)
  · rcases eq_or_ne t (-1074) with hmin | hmin
    · exact Or.inl hmin
    · -- above the lowest place the mantissa has 53 bits at least, so it is not zero
      have hm : m ≠ 0 := by
        rintro rfl
        simp at ht
        omega
      have hlog : (2 : ℚ) ^ m.log2 ≤ m := by exact_mod_cast Nat.log2_self_le hm
      refine Or.inr ⟨by omega, ?_⟩
      calc (2 : ℚ) ^ (t + 52) = 2 ^ (m.log2 + e : ℤ) := by congr 1; omega
        _ = 2 ^ m.log2 * 2 ^ e := by rw [zpow_add₀ (by norm_num), zpow_natCast]
        _ ≤ q * 2 ^ e := mul_le_mul_of_nonneg_right (by linarith) hpos.le

/-- The second shift only makes room for a carry out of the mantissa. -/
theorem shiftToTarget_rounded {g : ℕ} {t : ℤ} (hg : g ≤ 2 ^ 53) (ht : -1074 ≤ t) :
    ∃ m e, shiftToTargetExponent Format.binary64 g t .exact = (⟨m, false, false⟩, e) ∧
      (m = g ∧ e = t ∧ g < 2 ^ 53 ∨ m = 2 ^ 52 ∧ e = t + 1 ∧ g = 2 ^ 53) := by
  rcases Nat.lt_or_ge g (2 ^ 53) with hlt | hge
  · have hlog : g.log2 ≤ 52 := by
      rcases Nat.eq_zero_or_pos g with rfl | hpos
      · decide
      · exact Nat.le_of_lt_succ ((Nat.log2_lt hpos.ne').mpr hlt)
    have htarget : (Format.binary64.targetExponent (Float.Model.totalExponent g t) - t).toNat = 0 := by
      have : Format.binary64.targetExponent (Float.Model.totalExponent g t) =
          max (g.log2 + 1 + t - 53) (-1074) := rfl
      omega
    refine ⟨g, t, ?_, Or.inl ⟨rfl, rfl, hlt⟩⟩
    rw [shiftToTargetExponent, shiftToExponent, htarget, Int.natCast_zero, Int.add_zero]
    rfl
  · obtain rfl : g = 2 ^ 53 := le_antisymm hg hge
    refine ⟨2 ^ 52, t + 1, ?_, Or.inr ⟨rfl, rfl, rfl⟩⟩
    have hshift := shiftToTarget_exact (m := 2 ^ 52) (e := t + 1) 1 (by decide) (by omega)
    rwa [Nat.cast_one, Int.add_sub_cancel] at hshift

/-- A mantissa with its accuracy is rounded as the number is that it stands for. -/
theorem roundWithAccuracy_isRounded (s : Sign) {m : ℕ} {e : ℤ} {accuracy : Accuracy} {q : ℚ}
    (h : StandsFor (ExtendedMantissa.ofMantissaAndAccuracy m accuracy) q)
    (he : e ≤ max (m.log2 + 1 + e - 53) (-1074)) :
    IsRounded (roundWithAccuracy Format.binary64 s m e accuracy)
      (withSign s (rounded (q * 2 ^ e))) := by
  obtain ⟨em, t, hshift, hem, hhigh, hlow⟩ := shiftToTarget_standsFor h he
  have hq : 0 ≤ q * 2 ^ e := mul_nonneg ((Nat.cast_nonneg _).trans h.floor.1) (two_zpow_pos e).le
  have hpos := two_zpow_pos t
  have hmantissa := hem.roundedMantissa
  have hrounded : rounded (q * 2 ^ e) = em.roundedMantissa * 2 ^ t := by
    rw [rounded_eq (by rwa [abs_of_nonneg hq]) (by rwa [abs_of_nonneg hq]), ← hmantissa,
      Int.cast_natCast]
  have hpower (n : ℕ) : (2 : ℚ) ^ (t + n) = ((2 ^ n : ℕ) : ℤ) * 2 ^ t := by
    rw [add_comm, zpow_add₀ (by norm_num), zpow_natCast]
    push_cast
    rfl
  have hg : em.roundedMantissa ≤ 2 ^ 53 := by
    have hle : q * 2 ^ e / 2 ^ t ≤ ((2 ^ 53 : ℕ) : ℤ) := by
      rw [div_le_iff₀ hpos, ← hpower]
      exact hhigh.le
    have := roundEven_le hle
    omega
  have hnormal : t = -1074 ∨ 2 ^ 52 ≤ em.roundedMantissa := by
    refine hlow.imp_right fun ⟨_, hlow⟩ => ?_
    have hle : ((2 ^ 52 : ℕ) : ℤ) ≤ q * 2 ^ e / 2 ^ t := by
      rw [le_div_iff₀ hpos, ← hpower]
      exact hlow
    have := le_roundEven hle
    omega
  obtain ⟨m', e', hshift', hcases⟩ := shiftToTarget_rounded hg (t := t) (by omega)
  have hresult : roundWithAccuracy Format.binary64 s m e accuracy =
      if h : m' = 0 then .zero s else .finite s m' e' (Nat.pos_of_ne_zero h) := by
    rw [roundWithAccuracy, hshift]
    simp only [hshift']
  have hvalue : (m' : ℚ) * 2 ^ e' = em.roundedMantissa * 2 ^ t := by
    rcases hcases with ⟨rfl, rfl, -⟩ | ⟨rfl, rfl, hcarry⟩
    · rfl
    · rw [hcarry, zpow_add_one₀ (by norm_num)]
      push_cast
      ring
  rw [hresult, hrounded, ← hvalue]
  split_ifs with hzero
  · refine ⟨trivial, rfl, ?_⟩
    cases s <;> simp [exactValue, withSign, hzero]
  · exact ⟨⟨by omega, by omega, by omega⟩, rfl, rfl⟩

theorem round_isRounded (s : Sign) {m : ℕ} (hm : 0 < m) (e : ℤ) :
    IsRounded (round Format.binary64 s m e) (withSign s (rounded (m * 2 ^ e))) := by
  obtain ⟨k, hk⟩ : ∃ k, k = (e - max ((m.log2 : ℤ) + 1 + e - 53) (-1074)).toNat := ⟨_, rfl⟩
  have hround : round Format.binary64 s m e =
      roundWithAccuracy Format.binary64 s (m * 2 ^ k) (e - k) .exact := by
    rw [hk, ← Nat.shiftLeft_eq]
    rfl
  have hlog := log2_mul_two_pow hm k
  have hvalue : ((m * 2 ^ k : ℕ) : ℚ) * 2 ^ (e - k) = m * 2 ^ e := by
    rw [zpow_sub₀ (by norm_num), zpow_natCast]
    push_cast
    field_simp
  rw [hround, ← hvalue]
  exact roundWithAccuracy_isRounded s (standsFor_exact _) (by rw [hlog]; push_cast; omega)

theorem normalize_isRounded (m : ℤ) (e : ℤ) :
    IsRounded (Float.Model.UnpackedFloat.normalize Format.binary64 m e .positive)
      (rounded (m * 2 ^ e)) := by
  unfold Float.Model.UnpackedFloat.normalize
  cases h : compare m 0 with
  | lt =>
      have hm : m < 0 := compare_lt_iff_lt.mp h
      have hround := round_isRounded .negative (m := (-m).toNat) (by omega) e
      have hcast : (((-m).toNat : ℕ) : ℚ) = -m := by
        rw [← Int.cast_natCast, Int.toNat_of_nonneg (by omega), Int.cast_neg]
      rw [hcast, neg_mul, rounded_neg, withSign, neg_neg] at hround
      exact hround
  | eq =>
      obtain rfl : m = 0 := compare_eq_iff_eq.mp h
      refine ⟨trivial, rfl, ?_⟩
      rw [Int.cast_zero, zero_mul, rounded_of_onGrid onGrid_zero]
      rfl
  | gt =>
      have hm : 0 < m := compare_gt_iff_gt.mp h
      have hround := round_isRounded .positive (m := m.toNat) (by omega) e
      rwa [← Int.cast_natCast, Int.toNat_of_nonneg (by omega)] at hround

/-! ### The operations -/

/-- A double in canonical form is its own rounding. -/
theorem Canonical.onGrid {x : Float.Model.UnpackedFloat} (h : Canonical x) :
    OnGrid (exactValue x) := by
  cases x with
  | finite s m e hm =>
      have hgrid : OnGrid (m * 2 ^ e) := ⟨m, e, by simp, by
        rw [Nat.abs_cast]
        have := h.1
        omega, h.2.1⟩
      cases s with
      | positive => exact hgrid
      | negative => exact hgrid.neg
  | _ => exact onGrid_zero

theorem Canonical.isRounded {x : Float.Model.UnpackedFloat} (h : Canonical x)
    (hfinite : x.isFinite = true) : IsRounded x (rounded (exactValue x)) :=
  ⟨h, hfinite, (rounded_of_onGrid h.onGrid).symm⟩

theorem withSign_neg (s : Sign) (q : ℚ) : withSign (-s) q = -withSign s q := by
  cases s with
  | negative => exact (neg_neg q).symm
  | positive => rfl

theorem withSign_rounded (s : Sign) (q : ℚ) : withSign s (rounded q) = rounded (withSign s q) := by
  cases s with
  | negative => exact (rounded_neg q).symm
  | positive => rfl

theorem withSign_mul (s s' : Sign) (q r : ℚ) :
    withSign (s * s') (q * r) = withSign s q * withSign s' r := by
  match s, s' with
  | .negative, .negative => exact (neg_mul_neg q r).symm
  | .negative, .positive => exact (neg_mul q r).symm
  | .positive, .negative => exact (mul_neg q r).symm
  | .positive, .positive => rfl

theorem withSign_div (s s' : Sign) (q r : ℚ) :
    withSign (s / s') (q / r) = withSign s q / withSign s' r := by
  match s, s' with
  | .negative, .negative => exact (neg_div_neg_eq q r).symm
  | .negative, .positive => exact (neg_div r q).symm
  | .positive, .negative => exact (div_neg q).symm
  | .positive, .positive => rfl

theorem withSign_apply (s : Sign) (m : ℕ) (e : ℤ) :
    ((s.apply m : ℤ) : ℚ) * 2 ^ e = withSign s (m * 2 ^ e) := by
  cases s <;> simp [Sign.apply, withSign]

theorem decreaseExponent_value (s : Sign) (m : ℕ) {e t : ℤ} (h : t ≤ e) :
    ((s.apply ((decreaseExponent m e t).1 : ℕ) : ℤ) : ℚ) * 2 ^ t = withSign s (m * 2 ^ e) := by
  obtain ⟨k, hk⟩ := Int.le.dest h
  have hmantissa : (decreaseExponent m e t).1 = m * 2 ^ k := by
    rw [decreaseExponent, Nat.shiftLeft_eq, show (e - t).toNat = k by omega]
  rw [withSign_apply, hmantissa, ← hk, zpow_add₀ (by norm_num), zpow_natCast]
  congr 1
  push_cast
  ring

theorem isRounded_zero (s : Sign) : IsRounded (.zero s) (rounded 0) :=
  ⟨trivial, rfl, (rounded_of_onGrid onGrid_zero).symm⟩

/-- The remainder of a division says how much is left of the quotient. -/
theorem standsFor_div (n : ℕ) {d : ℕ} (hd : 0 < d) :
    StandsFor (ExtendedMantissa.ofMantissaAndAccuracy (n / d) (accuracyOfFraction (n % d) d))
      (n / d) := by
  have hdq : (0 : ℚ) < d := Nat.cast_pos.mpr hd
  have hlt : n % d < d := Nat.mod_lt n hd
  have hquotient : (n : ℚ) / d = (n / d : ℕ) + (n % d : ℕ) / d := by
    have hparts := Int.floor_add_fract ((n : ℚ) / d)
    rw [Rat.floor_natCast_div_natCast, Int.fract_div_natCast_eq_div_natCast_mod] at hparts
    exact_mod_cast hparts.symm
  have hcast : ((n % d : ℕ) : ℚ) < d := by exact_mod_cast hlt
  rw [hquotient]
  generalize n / d = q at *
  generalize n % d = r at *
  unfold accuracyOfFraction
  split_ifs with hr
  · simpa [hr] using standsFor_exact q
  have hrq : (0 : ℚ) < r / d := div_pos (by exact_mod_cast Nat.pos_of_ne_zero hr) hdq
  have hrq' : (r : ℚ) / d < 1 := (div_lt_one hdq).mpr hcast
  cases h : compare (2 * r) d with
  | lt =>
      have hhalf : 2 * ((r : ℚ) / d) < 1 := by
        rw [← mul_div_assoc, div_lt_one hdq]
        exact_mod_cast compare_lt_iff_lt.mp h
      constructor
      · simp [halves, ExtendedMantissa.ofMantissaAndAccuracy]
        linarith
      · simp [halves, ExtendedMantissa.ofMantissaAndAccuracy]
        linarith
      · simp [halves, ExtendedMantissa.ofMantissaAndAccuracy]
        exact ⟨hr, hd.ne'⟩
  | eq =>
      have hhalf : 2 * ((r : ℚ) / d) = 1 := by
        rw [← mul_div_assoc, div_eq_one_iff_eq hdq.ne']
        exact_mod_cast compare_eq_iff_eq.mp h
      constructor <;> simp [halves, ExtendedMantissa.ofMantissaAndAccuracy] <;> linarith
  | gt =>
      have hhalf : 1 < 2 * ((r : ℚ) / d) := by
        rw [← mul_div_assoc, one_lt_div hdq]
        exact_mod_cast compare_gt_iff_gt.mp h
      constructor <;> simp [halves, ExtendedMantissa.ofMantissaAndAccuracy] <;> linarith

/-- A quotient of mantissas is computed to 53 bits at least, or to the lower end of the range. -/
theorem divCore_standsFor {m m' : ℕ} (hm : 0 < m) (e : ℤ) (hm' : 0 < m') (e' : ℤ) :
    ∃ m'' e'' accuracy q, divCore Format.binary64 m e m' e' = (m'', e'', accuracy) ∧
      StandsFor (ExtendedMantissa.ofMantissaAndAccuracy m'' accuracy) q ∧
      e'' ≤ max (m''.log2 + 1 + e'' - 53) (-1074) ∧
      q * 2 ^ e'' = m * 2 ^ e / (m' * 2 ^ e') := by
  obtain ⟨t, ht⟩ : ∃ t : ℤ, min (e - e')
      (max ((m.log2 + 1 + e) - (m'.log2 + 1 + e') - 53) (-1074)) = t := ⟨_, rfl⟩
  obtain ⟨k, hk⟩ := Int.le.dest (show t ≤ e - e' by omega)
  have hcore : divCore Format.binary64 m e m' e' =
      (m * 2 ^ k / m', t, accuracyOfFraction (m * 2 ^ k % m') m') := by
    have htarget : min (e - e') (Format.binary64.targetExponent
        (Float.Model.totalExponent m e - Float.Model.totalExponent m' e')) = t := ht
    rw [divCore, htarget, show (e - e' - t).toNat = k by omega, Nat.shiftLeft_eq]
  refine ⟨_, _, _, _, hcore, standsFor_div _ hm', ?_, ?_⟩
  · rcases lt_or_ge (-1074 : ℤ) t with hlow | hlow
    · have hlong : 2 ^ 52 ≤ m * 2 ^ k / m' := by
        rw [Nat.le_div_iff_mul_le hm']
        calc 2 ^ 52 * m' ≤ 2 ^ 52 * 2 ^ (m'.log2 + 1) := Nat.mul_le_mul_left _ Nat.lt_log2_self.le
          _ = 2 ^ (m'.log2 + 53) := by rw [← Nat.pow_add]; congr 1; omega
          _ ≤ 2 ^ (m.log2 + k) := Nat.pow_le_pow_right (by decide) (by omega)
          _ = 2 ^ m.log2 * 2 ^ k := Nat.pow_add ..
          _ ≤ m * 2 ^ k := Nat.mul_le_mul_right _ (Nat.log2_self_le hm.ne')
      have := (Nat.le_log2 (by omega)).mpr hlong
      omega
    · omega
  · have hmq : (m' : ℚ) ≠ 0 := by exact_mod_cast hm'.ne'
    have hscale : (2 : ℚ) ^ k * 2 ^ t * 2 ^ e' = 2 ^ e := by
      rw [← zpow_natCast, ← zpow_add₀ (by norm_num), ← zpow_add₀ (by norm_num)]
      congr 1
      omega
    have hpos := (two_zpow_pos e').ne'
    rw [← hscale]
    push_cast
    field_simp

section
variable {x y : Float.Model.UnpackedFloat} (hx : Canonical x) (hy : Canonical y)
  (hxfinite : x.isFinite = true) (hyfinite : y.isFinite = true)
include hx hy hxfinite hyfinite

theorem add_isRounded :
    IsRounded (add Format.binary64 x y) (rounded (exactValue x + exactValue y)) := by
  rcases zero_or_finite hxfinite with ⟨s, rfl⟩ | ⟨s, m, e, hm, rfl⟩ <;>
    rcases zero_or_finite hyfinite with ⟨s', rfl⟩ | ⟨s', m', e', hm', rfl⟩
  · simp only [exactValue, add_zero, add]
    split_ifs <;> exact isRounded_zero _
  · rw [exactValue_zero, zero_add]
    exact hy.isRounded rfl
  · rw [exactValue_zero, add_zero]
    exact hx.isRounded rfl
  · have hsum := normalize_isRounded (s.apply ((decreaseExponent m e (min e e')).1 : ℕ) +
      s'.apply ((decreaseExponent m' e' (min e e')).1 : ℕ)) (min e e')
    rw [Int.cast_add, add_mul, decreaseExponent_value s m (min_le_left e e'),
      decreaseExponent_value s' m' (min_le_right e e')] at hsum
    exact hsum

theorem sub_isRounded :
    IsRounded (sub Format.binary64 x y) (rounded (exactValue x - exactValue y)) := by
  rcases zero_or_finite hxfinite with ⟨s, rfl⟩ | ⟨s, m, e, hm, rfl⟩ <;>
    rcases zero_or_finite hyfinite with ⟨s', rfl⟩ | ⟨s', m', e', hm', rfl⟩
  · simp only [exactValue, sub_zero, sub]
    split_ifs <;> exact isRounded_zero _
  · rw [exactValue_zero, zero_sub, exactValue_finite, ← withSign_neg]
    exact Canonical.isRounded (show Canonical (.finite (-s') m' e' hm') from hy) rfl
  · rw [exactValue_zero, sub_zero]
    exact hx.isRounded rfl
  · have hdifference := normalize_isRounded (s.apply ((decreaseExponent m e (min e e')).1 : ℕ) -
      s'.apply ((decreaseExponent m' e' (min e e')).1 : ℕ)) (min e e')
    rw [Int.cast_sub, sub_mul, decreaseExponent_value s m (min_le_left e e'),
      decreaseExponent_value s' m' (min_le_right e e')] at hdifference
    exact hdifference

theorem mul_isRounded :
    IsRounded (mul Format.binary64 x y) (rounded (exactValue x * exactValue y)) := by
  rcases zero_or_finite hxfinite with ⟨s, rfl⟩ | ⟨s, m, e, hm, rfl⟩ <;>
    rcases zero_or_finite hyfinite with ⟨s', rfl⟩ | ⟨s', m', e', hm', rfl⟩
  · rw [exactValue_zero, zero_mul]
    exact isRounded_zero _
  · rw [exactValue_zero, zero_mul]
    exact isRounded_zero _
  · rw [exactValue_zero, mul_zero]
    exact isRounded_zero _
  · -- only two numbers at the lower end of the range have a product of less than 53 bits
    have hlength : e + e' ≤ max ((m * m').log2 + 1 + (e + e') - 53) (-1074) := by
      rcases Nat.lt_or_ge (m * m') (2 ^ 52) with hshort | hlong
      · have hm52 : m < 2 ^ 52 := (Nat.le_mul_of_pos_right m hm').trans_lt hshort
        have hm52' : m' < 2 ^ 52 := (Nat.le_mul_of_pos_left m' hm).trans_lt hshort
        have he := hx.2.2.resolve_left hm52.not_ge
        have he' := hy.2.2.resolve_left hm52'.not_ge
        omega
      · have := (Nat.le_log2 (Nat.mul_pos hm hm').ne').mpr hlong
        omega
    have hproduct := roundWithAccuracy_isRounded (s * s') (standsFor_exact (m * m')) hlength
    have hvalue : ((m * m' : ℕ) : ℚ) * 2 ^ (e + e') = m * 2 ^ e * (m' * 2 ^ e') := by
      rw [zpow_add₀ (by norm_num)]
      push_cast
      ring
    rw [hvalue, withSign_rounded, withSign_mul] at hproduct
    exact hproduct

theorem div_isRounded (hzero : exactValue y ≠ 0) :
    IsRounded (div Format.binary64 x y) (rounded (exactValue x / exactValue y)) := by
  rcases zero_or_finite hyfinite with ⟨s', rfl⟩ | ⟨s', m', e', hm', rfl⟩
  · exact absurd rfl hzero
  rcases zero_or_finite hxfinite with ⟨s, rfl⟩ | ⟨s, m, e, hm, rfl⟩
  · rw [exactValue_zero, zero_div]
    exact isRounded_zero _
  · obtain ⟨m'', e'', accuracy, q, hcore, hstands, hlength, hvalue⟩ := divCore_standsFor hm e hm' e'
    have hquotient := roundWithAccuracy_isRounded (s / s') hstands hlength
    rw [hvalue, withSign_rounded, withSign_div] at hquotient
    rw [div, hcore]
    exact hquotient

end

end RouteTraffic.Decimal
