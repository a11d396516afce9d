import RouteTraffic.Proofs.WholeDoubles
import RouteTraffic.Traffic

/-! # Adding zero to a sum of doubles

Adding zero to a double leaves it as it is, unless it is the zero below zero, which becomes the
zero above.  A sum that starts at zero is never the zero below zero, however it goes on: two parts
add up to it only if both are it (`add_fits`), and no other number is so small that rounding or
packing turns it into a zero (`round_fits`, `pack_finite_ne_packedZero`).  So zero may be added to
such a sum, or be left out (`Traffic.sum_add_zero`). -/

namespace RouteTraffic.Decimal

open Float.Model (Format)
open Float.Model.UnpackedFloat

/-! ### Rounding keeps what is not zero -/

theorem shiftRight_mantissa (em : ExtendedMantissa) (j : ℕ) :
    (em >>> j).mantissa = em.mantissa / 2 ^ j := by
  induction j generalizing em with
  | zero => exact (Nat.div_one _).symm
  | succ j ih =>
      show (ExtendedMantissa.shiftRightOne (em >>> j)).mantissa = _
      rw [ExtendedMantissa.shiftRightOne, ih, Nat.pow_succ, ← Nat.div_div_eq_div_mul]

theorem ofMantissaAndAccuracy_mantissa (m : ℕ) (accuracy : Accuracy) :
    (ExtendedMantissa.ofMantissaAndAccuracy m accuracy).mantissa = m := by
  unfold ExtendedMantissa.ofMantissaAndAccuracy
  split <;> rfl

/-- A mantissa that is shifted to its place keeps its first bit and has at most 53 bits. -/
theorem shiftToTarget_bounds {m : ℕ} {e : ℤ} (hm : 0 < m) (he : -1074 ≤ e) (accuracy : Accuracy) :
    let shifted := shiftToTargetExponent Format.binary64 m e accuracy
    0 < shifted.1.mantissa ∧ shifted.1.mantissa < 2 ^ 53 ∧ -1074 ≤ shifted.2 := by
  intro shifted
  obtain ⟨hlow, hhigh⟩ := (Nat.log2_eq_iff (Nat.ne_of_gt hm)).mp (rfl : m.log2 = m.log2)
  have htarget : Format.binary64.targetExponent (Float.Model.totalExponent m e) =
      max (m.log2 + 1 + e - 53) (-1074) := rfl
  have hshifted : shifted = (ExtendedMantissa.ofMantissaAndAccuracy m accuracy >>>
      (max (m.log2 + 1 + e - 53) (-1074) - e).toNat,
        e + (max (m.log2 + 1 + e - 53) (-1074) - e).toNat) := by
    show shiftToTargetExponent Format.binary64 m e accuracy = _
    rw [shiftToTargetExponent, htarget]
    rfl
  generalize hj : (max (m.log2 + 1 + e - 53) (-1074) - e).toNat = j at hshifted
  rw [hshifted, shiftRight_mantissa, ofMantissaAndAccuracy_mantissa]
  refine ⟨Nat.div_pos ?_ (Nat.two_pow_pos j), ?_, by omega⟩
  · exact (Nat.pow_le_pow_right (by decide) (by omega)).trans hlow
  · rw [Nat.div_lt_iff_lt_mul (Nat.two_pow_pos j), ← Nat.pow_add]
    exact hhigh.trans_le (Nat.pow_le_pow_right (by decide) (by omega))

theorem le_roundedMantissa (em : ExtendedMantissa) : em.mantissa ≤ em.roundedMantissa := by
  unfold ExtendedMantissa.roundedMantissa Accuracy.roundToNearestEven
  split <;> omega

/-- The mantissa and the exponent fit into a double. -/
def Fits : Float.Model.UnpackedFloat → Prop
  | .finite _ m e _ => m < 2 ^ 53 ∧ -1074 ≤ e
  | _ => True

theorem round_fits (s : Sign) {m : ℕ} {e : ℤ} (hm : 0 < m) (he : -1074 ≤ e) :
    let rounded := round Format.binary64 s m e
    Fits rounded ∧ rounded ≠ .zero .negative := by
  intro rounded
  set target := Format.binary64.targetExponent (Float.Model.totalExponent m e) with htarget
  have hle : -1074 ≤ target := le_max_right _ _
  obtain ⟨k, hk⟩ : ∃ k, k = (e - target).toNat := ⟨_, rfl⟩
  have hrounded : rounded = roundWithAccuracy Format.binary64 s (m <<< k) (e - k) .exact := by
    rw [hk]
    rfl
  have hm' : 0 < m <<< k := by
    rw [Nat.shiftLeft_eq]
    exact Nat.mul_pos hm (Nat.two_pow_pos k)
  obtain ⟨hpos, -, hexp⟩ := shiftToTarget_bounds (e := e - k) hm' (by omega) .exact
  obtain ⟨hpos', hlt, hexp'⟩ :=
    shiftToTarget_bounds (hpos.trans_le (le_roundedMantissa _)) hexp .exact
  have hfinite : rounded = .finite s _ _ hpos' := hrounded.trans (dif_neg (Nat.ne_of_gt hpos'))
  rw [hfinite]
  exact ⟨⟨hlt, hexp'⟩, by simp⟩

theorem normalize_fits (m : ℤ) {e : ℤ} (he : -1074 ≤ e) :
    let sum := Float.Model.UnpackedFloat.normalize Format.binary64 m e .positive
    Fits sum ∧ sum ≠ .zero .negative := by
  intro sum
  have hsum : sum = match compare m 0 with
      | .lt => round Format.binary64 .negative (-m).toNat e
      | .eq => .zero .positive
      | .gt => round Format.binary64 .positive m.toNat e := rfl
  rw [hsum]
  cases h : compare m 0 with
  | lt => exact round_fits _ (by have := compare_lt_iff_lt.mp h; omega) he
  | eq => exact ⟨trivial, by simp⟩
  | gt => exact round_fits _ (by have := compare_gt_iff_gt.mp h; omega) he

/-! ### Sums and zero -/

/-- A sum is the zero below zero only if both parts are. -/
theorem add_fits {x y : Float.Model.UnpackedFloat} (hx : Fits x) (hy : Fits y)
    (h : x ≠ .zero .negative) :
    let sum := add Format.binary64 x y
    Fits sum ∧ sum ≠ .zero .negative := by
  intro sum
  have hsum : sum = add Format.binary64 x y := rfl
  cases x with
  | notANumber => exact ⟨trivial, by simp [hsum, add]⟩
  | infinity s =>
      cases y with
      | infinity s' =>
          simp only [hsum, add]
          split_ifs <;> exact ⟨trivial, by simp⟩
      | _ => exact ⟨trivial, by simp [hsum, add]⟩
  | zero s =>
      have hs : s = .positive := by cases s <;> simp_all
      subst hs
      cases y with
      | zero s' => cases s' <;> exact ⟨trivial, by simp [hsum, add]⟩
      | finite => exact ⟨hy, by simp [hsum, add]⟩
      | _ => exact ⟨trivial, by simp [hsum, add]⟩
  | finite s m e hm =>
      cases y with
      | finite s' m' e' hm' => exact normalize_fits _ (le_min hx.2 hy.2)
      | zero => exact ⟨hx, by simp [hsum, add]⟩
      | _ => exact ⟨trivial, by simp [hsum, add]⟩

/-! ### Packing keeps what is not zero -/

theorem unpack_fits (x : Float) : Fits x.toModel.unpack := by
  have hbias : ((Format.binary64.exponentBias : ℤ) +
      (Format.binary64.mantissaBitsWithoutImplicit : ℤ)) = 1075 := by rfl
  show Fits (unpack Format.binary64 x.toModel.toBits.toBitVec)
  unfold unpack
  simp only [hbias]
  split_ifs with h1 h2 h3 h4
  · trivial
  · trivial
  · trivial
  · exact ⟨(BitVec.isLt _).trans (by decide), by omega⟩
  · have : (@unpackExponent Format.binary64 x.toModel.toBits.toBitVec).toNat ≠ 0 := fun h0 =>
      h3 (BitVec.eq_of_toNat_eq h0)
    exact ⟨BitVec.isLt _, by omega⟩

theorem pack_finite_ne_packedZero {s : Sign} {m : ℕ} {e : ℤ} {hm : 0 < m} (hlt : m < 2 ^ 53)
    (he : -1074 ≤ e) (sign : Sign) :
    pack Format.binary64 (.finite s m e hm) ≠ packedZero Format.binary64 sign := by
  intro h
  have hexponent := congrArg (@unpackExponent Format.binary64) h
  have hmantissa := congrArg (@unpackMantissa Format.binary64) h
  have hbiased : (e + (Format.binary64.exponentBias : ℤ) +
      (Format.binary64.mantissaBitsWithoutImplicit : ℤ)).toNat = (e + 1075).toNat := by
    show (e + 1023 + 52).toNat = _
    omega
  simp only [pack, hbiased] at hexponent hmantissa
  split_ifs at hexponent hmantissa with hinf hfull
  · rw [packedInfinity, packedZero, unpackExponent_packComponents,
      unpackExponent_packComponents] at hexponent
    exact absurd hexponent (by decide)
  · rw [packedZero, unpackExponent_packComponents, unpackExponent_packComponents,
      ← BitVec.toNat_inj, BitVec.toNat_ofNat] at hexponent
    have : (e + 1075).toNat % 2 ^ 11 = 0 := hexponent
    have : ¬ 2 ^ 11 ≤ (e + 1075).toNat + 1 := hinf
    omega
  · rw [packedZero, unpackMantissa_packComponents, unpackMantissa_packComponents,
      ← BitVec.toNat_inj, BitVec.toNat_ofNat] at hmantissa
    have hzero : m % 2 ^ 52 = 0 := hmantissa
    have hshort : ¬ m.log2 = 52 := fun h52 => hfull (congrArg (· + 1) h52)
    have : m < 2 ^ 52 := by
      by_contra hlong
      exact hshort ((Nat.log2_eq_iff (by omega)).mpr ⟨by omega, hlt⟩)
    omega

theorem pack_ne_negativeZero {x : Float.Model.UnpackedFloat} (hx : Fits x)
    (h : x ≠ .zero .negative) :
    pack Format.binary64 x ≠ packedZero Format.binary64 .negative := by
  cases x with
  | notANumber => decide
  | infinity s => cases s <;> decide
  | zero s =>
      cases s with
      | positive => decide
      | negative => exact absurd rfl h
  | finite s m e hm => exact pack_finite_ne_packedZero hx.1 hx.2 .negative

/-! ### Doubles -/

/-- The double is the zero below zero. -/
def IsNegativeZero (x : Float) : Prop := x.toModel.unpack = .zero .negative

theorem unpack_zero : (0 : Float).toModel.unpack = .zero .positive := rfl

theorem zero_not_negativeZero : ¬IsNegativeZero 0 := by
  unfold IsNegativeZero
  rw [unpack_zero]
  simp

theorem add_zero_of_not_negativeZero {x : Float} (h : ¬IsNegativeZero x) : x + 0 = x := by
  have hadd : add Format.binary64 x.toModel.unpack (0 : Float).toModel.unpack =
      x.toModel.unpack := by
    rw [unpack_zero]
    unfold IsNegativeZero at h
    cases hx : x.toModel.unpack with
    | zero s =>
        cases s with
        | positive => rfl
        | negative => exact absurd hx h
    | _ => rfl
  apply eq_of_toBits
  show UInt64.ofBitVec (pack Format.binary64 (add Format.binary64 x.toModel.unpack
    (0 : Float).toModel.unpack)) = x.toBits
  rw [hadd]
  exact congrArg UInt64.ofBitVec (pack_unpack_of_valid x.toModel.valid)

theorem not_negativeZero_add {x : Float} (h : ¬IsNegativeZero x) (y : Float) :
    ¬IsNegativeZero (x + y) := by
  obtain ⟨hfits, hne⟩ := add_fits (unpack_fits x) (unpack_fits y) h
  intro hsum
  have hunpack : unpack Format.binary64 (pack Format.binary64
    (add Format.binary64 x.toModel.unpack y.toModel.unpack)) = .zero .negative := hsum
  refine pack_ne_negativeZero hfits hne ?_
  rw [← pack_unpack_of_valid valid_pack, hunpack]
  rfl

end RouteTraffic.Decimal

namespace RouteTraffic.Traffic

open Decimal

theorem sum_not_negativeZero (values : List (Traffic Float)) :
    ¬IsNegativeZero (sum values).sent ∧ ¬IsNegativeZero (sum values).received := by
  induction values using List.reverseRecOn with
  | nil => exact ⟨zero_not_negativeZero, zero_not_negativeZero⟩
  | append_singleton values value ih =>
      rw [sum_concat]
      exact ⟨not_negativeZero_add ih.1 _, not_negativeZero_add ih.2 _⟩

/-- **Nothing adds nothing.**  A sum from zero is never the zero below zero, so adding zero to it
leaves it as it is, to the last bit. -/
theorem sum_add_zero (values : List (Traffic Float)) : sum values + 0 = sum values := by
  obtain ⟨hsent, hreceived⟩ := sum_not_negativeZero values
  show (⟨_ + 0, _ + 0⟩ : Traffic Float) = _
  rw [add_zero_of_not_negativeZero hsent, add_zero_of_not_negativeZero hreceived]

end RouteTraffic.Traffic
