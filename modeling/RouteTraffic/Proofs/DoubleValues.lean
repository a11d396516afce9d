import RouteTraffic.Proofs.RoundedDoubles

/-! # Doubles as rational numbers

Every finite double stands for a rational number, and arithmetic on doubles is arithmetic on these
numbers, rounded, as long as the result is below `2 ^ 1024` (`value_add` and the lemmas after it).
The double nearest to a quotient of natural numbers stands for the rounded quotient
(`value_nearest`). -/

namespace RouteTraffic.Decimal

open Float.Model (Format UnpackedFloat)
open Float.Model.UnpackedFloat

/-! ### Packing -/

theorem unpackSign_packComponents (s : Sign) (e : BitVec 11) (m : BitVec 52) :
    Sign.ofBitVec (@unpackSign Format.binary64 (packComponents Format.binary64 s e m)) = s := by
  have hbits := packComponents_toNat s e m
  have he := e.isLt
  have hm := m.isLt
  rw [ofBitVec_unpackSign, signBit, hbits, twoPow_eq]
  cases s with
  | negative =>
      have hbit : ((Sign.negative.toBitVec).toNat * 2 ^ 63 + e.toNat * 2 ^ 52 + m.toNat) / 2 ^ 63 % 2 =
          1 := by
        rw [show (Sign.negative.toBitVec).toNat = 1 by rfl]
        omega
      rw [hbit]
      rfl
  | positive =>
      have hbit : ((Sign.positive.toBitVec).toNat * 2 ^ 63 + e.toNat * 2 ^ 52 + m.toNat) / 2 ^ 63 % 2 =
          0 := by
        rw [show (Sign.positive.toBitVec).toNat = 0 by rfl]
        omega
      rw [hbit]
      rfl

theorem unpack_packedInfinity (s : Sign) :
    unpack Format.binary64 (packedInfinity Format.binary64 s) = .infinity s := by
  have hsign := unpackSign_packComponents s (-1#11) 0#52
  simp only [unpack, packedInfinity, unpackExponent_packComponents, unpackMantissa_packComponents,
    if_true]
  exact congrArg Float.Model.UnpackedFloat.infinity hsign

section
variable {s : Sign} {m : ℕ} {e : ℤ} {hm : 0 < m}

theorem biasedExponent (e : ℤ) : (e + (Format.binary64.exponentBias : ℤ) +
    (Format.binary64.mantissaBitsWithoutImplicit : ℤ)).toNat = (e + 1075).toNat := by
  show (e + 1023 + 52).toNat = _
  omega

theorem unpack_pack_large (he : 972 ≤ e) :
    unpack Format.binary64 (pack Format.binary64 (.finite s m e hm)) = .infinity s := by
  have hinf : 2 ^ Format.binary64.exponentBits ≤ (e + 1075).toNat + 1 := by
    show 2 ^ 11 ≤ _
    omega
  have hpack : pack Format.binary64 (.finite s m e hm) = packedInfinity Format.binary64 s := by
    rw [pack, biasedExponent]
    exact if_pos hinf
  rw [hpack, unpack_packedInfinity]

theorem unpack_pack_finite (h : Canonical (.finite s m e hm)) (he : e ≤ 971) :
    unpack Format.binary64 (pack Format.binary64 (.finite s m e hm)) = .finite s m e hm := by
  obtain ⟨hlt, hlow, hnormal⟩ := h
  have hinf : ¬ 2 ^ Format.binary64.exponentBits ≤ (e + 1075).toNat + 1 := by
    show ¬ 2 ^ 11 ≤ _
    omega
  rcases Nat.lt_or_ge m (2 ^ 52) with hshort | hlong
  · obtain rfl := hnormal.resolve_left hshort.not_ge
    have hlog : ¬ m.log2 + 1 = Format.binary64.mantissaBits := by
      have := (Nat.log2_lt hm.ne').mpr hshort
      show ¬ m.log2 + 1 = 53
      omega
    have hpack : pack Format.binary64 (.finite s m (-1074) hm) =
        packComponents Format.binary64 s 0#11 (BitVec.ofNat 52 m) := by
      rw [pack, biasedExponent]
      exact (if_neg hinf).trans (if_neg hlog)
    have hmantissa : (BitVec.ofNat 52 m).toNat = m := Nat.mod_eq_of_lt hshort
    have hnonzero : BitVec.ofNat 52 m ≠ 0#52 := fun h => hm.ne' (hmantissa.symm.trans (h ▸ rfl))
    have hsign := unpackSign_packComponents s 0#11 (BitVec.ofNat 52 m)
    rw [hpack]
    simp only [unpack, unpackExponent_packComponents, unpackMantissa_packComponents]
    rw [if_neg (by decide), if_pos trivial, dif_neg hnonzero]
    simp only [hsign, hmantissa, Float.Model.UnpackedFloat.finite.injEq, true_and]
    rfl
  · have hlog : m.log2 + 1 = Format.binary64.mantissaBits :=
      congrArg (· + 1) ((Nat.log2_eq_iff hm.ne').mpr ⟨hlong, hlt⟩)
    obtain ⟨b, hb⟩ : ∃ b, b = BitVec.ofNat 11 (e + 1075).toNat := ⟨_, rfl⟩
    have hbiased : b.toNat = (e + 1075).toNat := by
      rw [hb]
      exact Nat.mod_eq_of_lt (by omega)
    have hpack : pack Format.binary64 (.finite s m e hm) =
        packComponents Format.binary64 s b (BitVec.ofNat 52 m) := by
      rw [pack, biasedExponent, hb]
      exact (if_neg hinf).trans (if_pos hlog)
    have hones : b ≠ -1#11 := by
      rw [ne_eq, ← BitVec.toNat_inj, hbiased, BitVec.neg_one_eq_allOnes, BitVec.toNat_allOnes]
      omega
    have hzero : b ≠ 0#11 := by
      rw [ne_eq, ← BitVec.toNat_inj, hbiased]
      show ¬ (e + 1075).toNat = 0
      omega
    -- the first bit of the mantissa is not stored
    have hmantissa : (1#1 ++ BitVec.ofNat 52 m).toNat = m := by
      rw [implicit_toNat, BitVec.toNat_ofNat]
      omega
    have hexponent : ((b.toNat : ℤ) - ((Format.binary64.exponentBias : ℤ) +
        (Format.binary64.mantissaBitsWithoutImplicit : ℤ))) = e := by
      rw [hbiased]
      show ((e + 1075).toNat : ℤ) - (1023 + 52) = e
      omega
    have hsign := unpackSign_packComponents s b (BitVec.ofNat 52 m)
    rw [hpack]
    simp only [unpack, unpackExponent_packComponents, unpackMantissa_packComponents]
    rw [if_neg hones, if_neg hzero]
    simp only [hsign, hmantissa, hexponent]

end

/-! ### Doubles -/

theorem unpack_bits_canonical (b : BitVec 64) : Canonical (unpack Format.binary64 b) := by
  have hbias : ((Format.binary64.exponentBias : ℤ) +
      (Format.binary64.mantissaBitsWithoutImplicit : ℤ)) = 1075 := by rfl
  unfold unpack
  simp only [hbias]
  split_ifs with hones hinf hsmall hzero
  · trivial
  · trivial
  · trivial
  · rw [hsmall]
    exact ⟨(BitVec.isLt _).trans (by decide), by decide, Or.inr (by rfl)⟩
  · have hnonzero : (@unpackExponent Format.binary64 b).toNat ≠ 0 :=
      fun h0 => hsmall (BitVec.eq_of_toNat_eq h0)
    refine ⟨BitVec.isLt _, by omega, Or.inl ?_⟩
    rw [implicit_toNat]
    exact Nat.le_add_right _ _

theorem unpack_canonical (x : Float) : Canonical x.toModel.unpack :=
  unpack_bits_canonical x.toModel.toBits.toBitVec

/-- The number that a finite double stands for. -/
def value (x : Float) : ℚ := exactValue x.toModel.unpack

theorem value_onGrid (x : Float) : OnGrid (value x) := (unpack_canonical x).onGrid

theorem withSign_zero (s : Sign) : withSign s 0 = 0 := by
  cases s with
  | negative => exact neg_zero
  | positive => rfl

theorem abs_withSign (s : Sign) (q : ℚ) : |withSign s q| = |q| := by
  cases s with
  | negative => exact abs_neg q
  | positive => rfl

theorem abs_exactValue (s : Sign) (m : ℕ) (e : ℤ) (hm : 0 < m) :
    |exactValue (.finite s m e hm)| = m * 2 ^ e := by
  have hpos : (0 : ℚ) ≤ m * 2 ^ e := mul_nonneg (Nat.cast_nonneg m) (two_zpow_pos e).le
  rw [exactValue_finite, abs_withSign, abs_of_nonneg hpos]

theorem exponent_le {s : Sign} {m : ℕ} {e : ℤ} {hm : 0 < m} (h : Canonical (.finite s m e hm))
    (hlt : |exactValue (.finite s m e hm)| < 2 ^ (1024 : ℤ)) : e ≤ 971 := by
  obtain ⟨-, hlow, hnormal⟩ := h
  by_contra hlarge
  have hlong : 2 ^ 52 ≤ m := hnormal.resolve_right (by omega)
  refine absurd hlt (not_lt.mpr ?_)
  calc (2 : ℚ) ^ (1024 : ℤ) ≤ 2 ^ (52 + e) := zpow_le_zpow_right₀ (by norm_num) (by omega)
    _ = 2 ^ (52 : ℤ) * 2 ^ e := zpow_add₀ (by norm_num) _ _
    _ ≤ m * 2 ^ e := mul_le_mul_of_nonneg_right (by exact_mod_cast hlong) (two_zpow_pos e).le
    _ = _ := (abs_exactValue s m e hm).symm

theorem abs_exactValue_lt {s : Sign} {m : ℕ} {e : ℤ} {hm : 0 < m} (hlt : m < 2 ^ 53)
    (he : e ≤ 971) : |exactValue (.finite s m e hm)| < 2 ^ (1024 : ℤ) := by
  have hm53 : (m : ℚ) < 2 ^ (53 : ℤ) := by exact_mod_cast hlt
  calc |exactValue (.finite s m e hm)| = m * 2 ^ e := abs_exactValue s m e hm
    _ < 2 ^ (53 : ℤ) * 2 ^ e := mul_lt_mul_of_pos_right hm53 (two_zpow_pos e)
    _ = 2 ^ (53 + e) := (zpow_add₀ (by norm_num) _ _).symm
    _ ≤ 2 ^ (1024 : ℤ) := zpow_le_zpow_right₀ (by norm_num) (by omega)

theorem abs_value_lt (x : Float) : |value x| < 2 ^ (1024 : ℤ) := by
  have hcanonical := unpack_canonical x
  have hagain : unpack Format.binary64 (UnpackedFloat.pack Format.binary64 x.toModel.unpack) =
      x.toModel.unpack := congrArg (unpack Format.binary64) (pack_unpack_of_valid x.toModel.valid)
  unfold value
  cases h : x.toModel.unpack with
  | finite s m e hm =>
      rw [h] at hcanonical hagain
      have he : e ≤ 971 := by
        by_contra hlarge
        rw [unpack_pack_large (by omega)] at hagain
        cases hagain
      exact abs_exactValue_lt hcanonical.1 he
  | _ => simp [exactValue]

/-- What is rounded to a number below the end of the range is packed as a finite double. -/
theorem IsRounded.toDouble {x : UnpackedFloat} {q : ℚ} (h : IsRounded x q)
    (hq : |q| < 2 ^ (1024 : ℤ)) :
    (Float.ofModel (.pack x)).isFinite = true ∧ value (Float.ofModel (.pack x)) = q := by
  obtain ⟨hcanonical, hfinite, rfl⟩ := h
  have hunpack : (Float.ofModel (.pack x)).toModel.unpack = x := by
    rcases zero_or_finite hfinite with ⟨s, rfl⟩ | ⟨s, m, e, hm, rfl⟩
    · cases s <;> rfl
    · exact unpack_pack_finite hcanonical (exponent_le hcanonical hq)
  rw [value, hunpack]
  refine ⟨?_, rfl⟩
  show (Float.ofModel (.pack x)).toModel.unpack.isFinite = true
  rw [hunpack, hfinite]

theorem IsRounded.unpack_infinite {x : UnpackedFloat} {q : ℚ} (h : IsRounded x q)
    (hq : ¬ |q| < 2 ^ (1024 : ℤ)) :
    ∃ s, (Float.ofModel (.pack x)).toModel.unpack = .infinity s := by
  obtain ⟨hcanonical, hx, rfl⟩ := h
  rcases zero_or_finite hx with ⟨s, rfl⟩ | ⟨s, m, e, hm, rfl⟩
  · simp [exactValue] at hq
  · have he : 972 ≤ e := by
      by_contra he
      exact hq (abs_exactValue_lt hcanonical.1 (by omega))
    have hpacked : unpack .binary64 (UnpackedFloat.pack .binary64 (.finite s m e hm)) =
        .infinity s := unpack_pack_large he
    exact ⟨s, hpacked⟩

theorem IsRounded.abs_lt {x : UnpackedFloat} {q : ℚ} (h : IsRounded x q)
    (hfinite : (Float.ofModel (.pack x)).isFinite = true) : |q| < 2 ^ (1024 : ℤ) := by
  by_contra hlarge
  obtain ⟨s, hinfinite⟩ := h.unpack_infinite hlarge
  have hunpacked : (Float.ofModel (.pack x)).toModel.unpack.isFinite = true := hfinite
  rw [hinfinite] at hunpacked
  cases hunpacked

/-! ### Arithmetic -/

section
variable {x y : Float} (hx : x.isFinite = true) (hy : y.isFinite = true)
include hx hy

theorem value_add (h : |rounded (value x + value y)| < 2 ^ (1024 : ℤ)) :
    (x + y).isFinite = true ∧ value (x + y) = rounded (value x + value y) :=
  (add_isRounded (unpack_canonical x) (unpack_canonical y) hx hy).toDouble h

theorem value_sub (h : |rounded (value x - value y)| < 2 ^ (1024 : ℤ)) :
    (x - y).isFinite = true ∧ value (x - y) = rounded (value x - value y) :=
  (sub_isRounded (unpack_canonical x) (unpack_canonical y) hx hy).toDouble h

theorem value_mul (h : |rounded (value x * value y)| < 2 ^ (1024 : ℤ)) :
    (x * y).isFinite = true ∧ value (x * y) = rounded (value x * value y) :=
  (mul_isRounded (unpack_canonical x) (unpack_canonical y) hx hy).toDouble h

theorem value_div (hzero : value y ≠ 0) (h : |rounded (value x / value y)| < 2 ^ (1024 : ℤ)) :
    (x / y).isFinite = true ∧ value (x / y) = rounded (value x / value y) :=
  (div_isRounded (unpack_canonical x) (unpack_canonical y) hx hy hzero).toDouble h

theorem abs_rounded_mul_lt (h : (x * y).isFinite = true) :
    |rounded (value x * value y)| < 2 ^ (1024 : ℤ) :=
  (mul_isRounded (unpack_canonical x) (unpack_canonical y) hx hy).abs_lt h

theorem unpack_mul_infinite (h : (x * y).isFinite = false) :
    ∃ s, (x * y).toModel.unpack = .infinity s := by
  refine (mul_isRounded (unpack_canonical x) (unpack_canonical y) hx hy).unpack_infinite fun hlt => ?_
  exact absurd (value_mul hx hy hlt).1 (Bool.eq_false_iff.mp h)

end

/-- A finite double is zero, or has a mantissa and an exponent in the ranges of the format. -/
theorem unpack_of_isFinite {x : Float} (h : x.isFinite = true) :
    (∃ s, x.toModel.unpack = .zero s) ∨ ∃ s m e hm, x.toModel.unpack = .finite s m e hm ∧
      Canonical (.finite s m e hm) ∧ e ≤ 971 := by
  have hcanonical := unpack_canonical x
  have hlt := abs_value_lt x
  refine (zero_or_finite h).imp_right fun ⟨s, m, e, hm, hx⟩ => ?_
  rw [value, hx] at hlt
  rw [hx] at hcanonical
  exact ⟨s, m, e, hm, hx, hcanonical, exponent_le hcanonical hlt⟩

theorem isFinite_neg {x : Float} (h : x.isFinite = true) : (-x).isFinite = true := by
  show (unpack .binary64 (UnpackedFloat.pack .binary64 x.toModel.unpack.neg)).isFinite = true
  rcases unpack_of_isFinite h with ⟨s, hx⟩ | ⟨s, m, e, hm, hx, hcanonical, he⟩
  · rw [hx]
    cases s <;> rfl
  · have hneg : UnpackedFloat.neg (.finite s m e hm) = .finite (-s) m e hm := rfl
    have hcanonical' : Canonical (.finite (-s) m e hm) := hcanonical
    rw [hx, hneg, unpack_pack_finite hcanonical' he]
    rfl

/-! ### Order -/

section
variable {s s' : Sign} {m n : ℕ} {e k : ℤ} {hm : 0 < m} {hn : 0 < n}
  (hx : Canonical (.finite s m e hm)) (hy : Canonical (.finite s' n k hn))
include hx hy

theorem Canonical.lt_of_exponent_lt (h : e < k) :
    (m : ℚ) * 2 ^ e < n * 2 ^ k := by
  obtain ⟨hlt, hlow, -⟩ := hx
  have hlong : 2 ^ 52 ≤ n := hy.2.2.resolve_right (by omega)
  calc (m : ℚ) * 2 ^ e < 2 ^ 53 * 2 ^ e :=
        mul_lt_mul_of_pos_right (by exact_mod_cast hlt) (two_zpow_pos e)
    _ = 2 ^ 52 * 2 ^ (e + 1) := by rw [zpow_add_one₀ (by norm_num)]; ring
    _ ≤ n * 2 ^ k := mul_le_mul (by exact_mod_cast hlong)
        (zpow_le_zpow_right₀ (by norm_num) (by omega)) (two_zpow_pos _).le (Nat.cast_nonneg n)

/-- Magnitudes are compared by their exponents first. -/
theorem Canonical.lt_iff :
    (compare e k).then (compare m n) = .lt ↔ (m : ℚ) * 2 ^ e < n * 2 ^ k := by
  rw [Ordering.then_eq_lt, compare_lt_iff_lt, compare_eq_iff_eq, compare_lt_iff_lt]
  rcases lt_trichotomy e k with h | rfl | h
  · exact iff_of_true (Or.inl h) (hx.lt_of_exponent_lt hy h)
  · rw [mul_lt_mul_iff_left₀ (two_zpow_pos e), Nat.cast_lt]
    simp
  · exact iff_of_false (by omega) (hy.lt_of_exponent_lt hx h).not_gt

theorem Canonical.gt_iff :
    (compare e k).then (compare m n) = .gt ↔ (n : ℚ) * 2 ^ k < m * 2 ^ e := by
  rw [← hy.lt_iff hx, Ordering.then_eq_lt, Ordering.then_eq_gt, compare_gt_iff_gt, compare_gt_iff_gt,
    compare_lt_iff_lt, compare_lt_iff_lt, compare_eq_iff_eq, compare_eq_iff_eq, eq_comm]

end

theorem lt_iff_value {x y : Float} (hx : x.isFinite = true) (hy : y.isFinite = true) :
    x < y ↔ value x < value y := by
  have hlt : x < y ↔ (x.toModel.unpack.compare y.toModel.unpack == some .lt) = true :=
    decide_eq_true_iff
  have hcx := unpack_canonical x
  have hcy := unpack_canonical y
  rw [hlt, value, value]
  rcases zero_or_finite hx with ⟨s, h⟩ | ⟨s, m, e, hm, h⟩ <;>
    rcases zero_or_finite hy with ⟨s', h'⟩ | ⟨s', n, k, hn, h'⟩ <;> rw [h, h'] <;>
    rw [h] at hcx <;> rw [h'] at hcy
  · exact iff_of_false nofun (lt_irrefl _)
  · have hpos : (0 : ℚ) < n * 2 ^ k := mul_pos (Nat.cast_pos.mpr hn) (two_zpow_pos k)
    cases s' with
    | negative => exact iff_of_false nofun (not_lt.mpr (neg_nonpos.mpr hpos.le))
    | positive => exact iff_of_true rfl hpos
  · have hpos : (0 : ℚ) < m * 2 ^ e := mul_pos (Nat.cast_pos.mpr hm) (two_zpow_pos e)
    cases s with
    | negative => exact iff_of_true rfl (neg_lt_zero.mpr hpos)
    | positive => exact iff_of_false nofun (not_lt.mpr hpos.le)
  · have hpos : (0 : ℚ) < m * 2 ^ e := mul_pos (Nat.cast_pos.mpr hm) (two_zpow_pos e)
    have hpos' : (0 : ℚ) < n * 2 ^ k := mul_pos (Nat.cast_pos.mpr hn) (two_zpow_pos k)
    rw [beq_iff_eq]
    cases s with
    | negative =>
        cases s' with
        | negative =>
            refine Option.some_inj.trans ?_
            rw [Ordering.swap_eq_lt, hcx.gt_iff hcy]
            exact neg_lt_neg_iff.symm
        | positive => exact iff_of_true rfl ((neg_lt_zero.mpr hpos).trans hpos')
    | positive =>
        cases s' with
        | negative => exact iff_of_false nofun (not_lt.mpr (((neg_lt_zero.mpr hpos').trans hpos).le))
        | positive => exact Option.some_inj.trans (hcx.lt_iff hcy)

/-! ### Magnitudes -/

theorem zpow_eq_div {b : ℚ} (hb : b ≠ 0) (k : ℤ) : b ^ k = b ^ k.toNat / b ^ (-k).toNat := by
  rw [eq_div_iff (pow_ne_zero _ hb), ← zpow_natCast, ← zpow_natCast, ← zpow_add₀ hb]
  congr 1
  omega

theorem binary_value (d : Binary) : (d.num : ℚ) / d.den = d.mantissa * 2 ^ d.exponent := by
  rw [zpow_eq_div (by norm_num), Binary.num, Binary.den, twoPow_eq, twoPow_eq]
  push_cast
  rw [mul_div_assoc]

/-- The magnitude of an unpacked double. -/
def magnitudeOf : UnpackedFloat → Magnitude
  | .finite _ m e _ => .finite ⟨m, e⟩
  | .zero _ => .finite ⟨0, -1074⟩
  | .infinity _ => .infinite
  | .notANumber => .notANumber

theorem magnitudeOfBits_eq (b : BitVec 64) :
    magnitudeOfBits b.toNat = magnitudeOf (unpack Format.binary64 b) := by
  have hbias : ((Format.binary64.exponentBias : ℤ) +
      (Format.binary64.mantissaBitsWithoutImplicit : ℤ)) = 1075 := by rfl
  have hones : @unpackExponent Format.binary64 b = -1#11 ↔ b.toNat / twoPow 52 % 2048 = 2047 := by
    rw [← BitVec.toNat_inj, unpackExponent_toNat, BitVec.neg_one_eq_allOnes, BitVec.toNat_allOnes]
    rfl
  have hsmall : @unpackExponent Format.binary64 b = 0#11 ↔ b.toNat / twoPow 52 % 2048 = 0 := by
    rw [← BitVec.toNat_inj, unpackExponent_toNat]
    rfl
  have hzero : @unpackMantissa Format.binary64 b = 0#52 ↔ b.toNat % twoPow 52 = 0 := by
    rw [← BitVec.toNat_inj, unpackMantissa_toNat]
    rfl
  have hexponent : (@unpackExponent Format.binary64 b).toNat = b.toNat / twoPow 52 % 2048 :=
    unpackExponent_toNat b
  have hmantissa := unpackMantissa_toNat b
  unfold unpack magnitudeOfBits
  simp only [hbias]
  by_cases h1 : b.toNat / twoPow 52 % 2048 = 2047
  · rw [if_pos h1, if_pos (hones.mpr h1)]
    by_cases h2 : b.toNat % twoPow 52 = 0
    · rw [if_pos h2, if_pos (hzero.mpr h2)]
      rfl
    · rw [if_neg h2, if_neg (mt hzero.mp h2)]
      rfl
  rw [if_neg h1, if_neg (mt hones.mp h1)]
  by_cases h2 : b.toNat / twoPow 52 % 2048 = 0
  · rw [if_pos h2, if_pos (hsmall.mpr h2)]
    by_cases h3 : b.toNat % twoPow 52 = 0
    · rw [dif_pos (hzero.mpr h3), h3]
      rfl
    · rw [dif_neg (mt hzero.mp h3)]
      simp only [magnitudeOf, hmantissa, hexponent, h2]
      rfl
  · rw [if_neg h2, if_neg (mt hsmall.mp h2)]
    simp only [magnitudeOf, implicit_toNat, hmantissa, hexponent]
    rfl

theorem magnitude_eq (x : Float) : magnitude x = magnitudeOf x.toModel.unpack :=
  magnitudeOfBits_eq x.toModel.toBits.toBitVec

theorem isFinite_iff_magnitude {x : Float} : x.isFinite = true ↔ ∃ d, magnitude x = .finite d := by
  have hfinite : x.isFinite = x.toModel.unpack.isFinite := rfl
  rw [magnitude_eq, hfinite]
  cases x.toModel.unpack with
  | infinity s => exact iff_of_false nofun nofun
  | notANumber => exact iff_of_false nofun nofun
  | zero s => exact iff_of_true rfl ⟨_, rfl⟩
  | finite s m e hm => exact iff_of_true rfl ⟨_, rfl⟩

theorem magnitude_of_isFinite {x : Float} (h : x.isFinite = true) :
    ∃ d, magnitude x = .finite d ∧ d.mantissa < 2 ^ 53 ∧ d.exponent ≤ 971 := by
  rcases unpack_of_isFinite h with ⟨s, hx⟩ | ⟨s, m, e, hm, hx, hcanonical, he⟩
  · exact ⟨⟨0, -1074⟩, by rw [magnitude_eq, hx]; rfl, by decide, by decide⟩
  · exact ⟨⟨m, e⟩, by rw [magnitude_eq, hx]; rfl, hcanonical.1, he⟩

theorem sign_of_unpack {b : BitVec 64} {s : Sign} {m : ℕ} {e : ℤ} {hm : 0 < m}
    (h : unpack Format.binary64 b = .finite s m e hm) : s = signOf (signBit b.toNat) := by
  rw [← ofBitVec_unpackSign]
  unfold unpack at h
  simp only at h
  split_ifs at h <;> injection h with hs <;> exact hs.symm

theorem negative_iff {x : Float} {s : Sign} {m : ℕ} {e : ℤ} {hm : 0 < m}
    (h : x.toModel.unpack = .finite s m e hm) : negative x = true ↔ s = .negative := by
  rw [sign_of_unpack (b := x.toModel.toBits.toBitVec) h]
  show signBit x.toModel.toBits.toBitVec.toNat = true ↔ _
  cases signBit x.toModel.toBits.toBitVec.toNat <;> simp [signOf]

theorem exactValue_of_bits {b : BitVec 64} {d : Binary}
    (h : magnitudeOfBits b.toNat = .finite d) :
    (unpack Format.binary64 b).isFinite = true ∧ exactValue (unpack Format.binary64 b) =
      withSign (signOf (signBit b.toNat)) (d.mantissa * 2 ^ d.exponent) := by
  rw [magnitudeOfBits_eq] at h
  cases hx : unpack Format.binary64 b with
  | infinity s => rw [hx] at h; cases h
  | notANumber => rw [hx] at h; cases h
  | zero s =>
      rw [hx] at h
      obtain rfl := Magnitude.finite.inj h
      refine ⟨rfl, ?_⟩
      rw [Nat.cast_zero, zero_mul, withSign_zero]
      rfl
  | finite s m e hm =>
      rw [hx] at h
      obtain rfl := Magnitude.finite.inj h
      rw [sign_of_unpack hx]
      exact ⟨rfl, rfl⟩

theorem value_of_magnitude {x : Float} {d : Binary} (h : magnitude x = .finite d) :
    value x = withSign (signOf (negative x)) (d.num / d.den) := by
  rw [binary_value]
  exact (exactValue_of_bits (b := x.toModel.toBits.toBitVec) h).2

/-! ### Quotients -/

theorem divNearestEven_eq (n : ℕ) {d : ℕ} (hd : 0 < d) :
    (divNearestEven n d : ℤ) = roundEven (n / d) := by
  have hdq : (0 : ℚ) < d := Nat.cast_pos.mpr hd
  have hbelow : 2 * Int.fract ((n : ℚ) / d) < 1 ↔ 2 * (n % d) < d := by
    rw [Int.fract_div_natCast_eq_div_natCast_mod, ← mul_div_assoc, div_lt_one hdq]
    exact_mod_cast Iff.rfl
  have habove : 1 < 2 * Int.fract ((n : ℚ) / d) ↔ d < 2 * (n % d) := by
    rw [Int.fract_div_natCast_eq_div_natCast_mod, ← mul_div_assoc, one_lt_div hdq]
    exact_mod_cast Iff.rfl
  unfold roundEven divNearestEven
  simp only [hbelow, habove, Rat.floor_natCast_div_natCast]
  split_ifs <;> first | rfl | omega

theorem lastPlace_eq {num den : ℕ} (hn : 0 < num) (hd : 0 < den) :
    lastPlace num den = placeOf (num / den) := by
  obtain ⟨e, he⟩ : ∃ e : ℤ, (num.log2 : ℤ) - den.log2 = e := ⟨_, rfl⟩
  have hnq : (0 : ℚ) < num := Nat.cast_pos.mpr hn
  have hdq : (0 : ℚ) < den := Nat.cast_pos.mpr hd
  have hpos : (0 : ℚ) < num / den := div_pos hnq hdq
  -- the quotient of the leading bits may be twice the quotient
  have hbelow : num * twoPow (-e).toNat < den * twoPow e.toNat ↔ (num : ℚ) / den < 2 ^ e := by
    rw [zpow_eq_div (by norm_num), div_lt_div_iff₀ hdq (by positivity), twoPow_eq, twoPow_eq,
      mul_comm den]
    exact_mod_cast Iff.rfl
  have hnlow : (2 : ℚ) ^ num.log2 ≤ num := by exact_mod_cast Nat.log2_self_le hn.ne'
  have hnhigh : (num : ℚ) < 2 ^ (num.log2 + 1) := by exact_mod_cast Nat.lt_log2_self
  have hdlow : (2 : ℚ) ^ den.log2 ≤ den := by exact_mod_cast Nat.log2_self_le hd.ne'
  have hdhigh : (den : ℚ) < 2 ^ (den.log2 + 1) := by exact_mod_cast Nat.lt_log2_self
  have hlow : (2 : ℚ) ^ (e - 1) ≤ num / den := by
    rw [le_div_iff₀ hdq]
    calc (2 : ℚ) ^ (e - 1) * den ≤ 2 ^ (e - 1) * 2 ^ (den.log2 + 1) :=
          mul_le_mul_of_nonneg_left hdhigh.le (two_zpow_pos _).le
      _ = 2 ^ num.log2 := by
          rw [← zpow_natCast, ← zpow_natCast, ← zpow_add₀ (by norm_num)]
          congr 1
          push_cast
          omega
      _ ≤ num := hnlow
  have hhigh : (num : ℚ) / den < 2 ^ (e + 1) := by
    rw [div_lt_iff₀ hdq]
    calc (num : ℚ) < 2 ^ (num.log2 + 1) := hnhigh
      _ = 2 ^ (e + 1) * 2 ^ den.log2 := by
          rw [← zpow_natCast, ← zpow_natCast, ← zpow_add₀ (by norm_num)]
          congr 1
          push_cast
          omega
      _ ≤ 2 ^ (e + 1) * den := mul_le_mul_of_nonneg_left hdlow (two_zpow_pos _).le
  have hlt (k : ℤ) : (num : ℚ) / den < 2 ^ k ↔ Int.log 2 ((num : ℚ) / den) < k := by
    exact_mod_cast Int.lt_zpow_iff_log_lt (b := 2) (by norm_num) hpos
  have hle (k : ℤ) : (2 : ℚ) ^ k ≤ num / den ↔ k ≤ Int.log 2 ((num : ℚ) / den) := by
    exact_mod_cast Int.zpow_le_iff_le_log (b := 2) (by norm_num) hpos
  rw [hlt] at hbelow hhigh
  rw [hle] at hlow
  rw [placeOf, abs_of_pos hpos]
  simp only [lastPlace, he, hbelow]
  split_ifs <;> omega

/-- The mantissa of the double nearest to a quotient, which may be carried over, and its place. -/
theorem nearestBits_rounded {num den : ℕ} (hn : 0 < num) (hd : 0 < den) :
    ∃ (t : ℤ) (g : ℕ), (t = -1074 ∨ -1074 ≤ t ∧ 2 ^ 52 ≤ g) ∧ g ≤ 2 ^ 53 ∧
      nearestBits num den = min ((t + 1074).toNat * 2 ^ 52 + g) infinityBits ∧
      rounded (num / den) = g * 2 ^ t := by
  have hpos : (0 : ℚ) < num / den := div_pos (Nat.cast_pos.mpr hn) (Nat.cast_pos.mpr hd)
  obtain ⟨t, ht⟩ : ∃ t, placeOf ((num : ℚ) / den) = t := ⟨_, rfl⟩
  have hunit := two_zpow_pos t
  have hmantissa := divNearestEven_eq (num * 2 ^ (-t).toNat) (d := den * 2 ^ t.toNat)
    (Nat.mul_pos hd (Nat.two_pow_pos _))
  have hscale : ((num * 2 ^ (-t).toNat : ℕ) : ℚ) / (den * 2 ^ t.toNat : ℕ) =
      num / den / 2 ^ t := by
    rw [zpow_eq_div (by norm_num) t]
    push_cast
    field_simp
  rw [hscale] at hmantissa
  have hpower (k : ℕ) : (2 : ℚ) ^ (t + k) = ((2 ^ k : ℕ) : ℤ) * 2 ^ t := by
    rw [add_comm, zpow_add₀ (by norm_num), zpow_natCast]
    push_cast
    rfl
  refine ⟨t, divNearestEven (num * 2 ^ (-t).toNat) (den * 2 ^ t.toNat), ?_, ?_, ?_, ?_⟩
  · have hlog : t = max (Int.log 2 |(num : ℚ) / den| - 52) (-1074) := ht.symm
    rcases eq_or_ne t (-1074) with hmin | hmin
    · exact Or.inl hmin
    · have hle : ((2 ^ 52 : ℕ) : ℤ) ≤ (num : ℚ) / den / 2 ^ t := by
        rw [le_div_iff₀ hunit, ← hpower, show t + ((52 : ℕ) : ℤ) = Int.log 2 |(num : ℚ) / den| by
          push_cast; omega, abs_of_pos hpos]
        exact Int.zpow_log_le_self (by norm_num) hpos
      have := le_roundEven hle
      exact Or.inr ⟨by omega, by omega⟩
  · have hle : (num : ℚ) / den / 2 ^ t ≤ ((2 ^ 53 : ℕ) : ℤ) := by
      have := abs_lt_place ((num : ℚ) / den)
      rw [ht, abs_of_pos hpos] at this
      rw [div_le_iff₀ hunit, ← hpower]
      exact this.le
    have := roundEven_le hle
    omega
  · rw [nearestBits, if_neg hn.ne', lastPlace_eq hn hd, ht]
    rfl
  · rw [rounded, ht, ← hmantissa, Int.cast_natCast]

/-- Bits that lie below those of infinity are read as the mantissa and its place. -/
theorem magnitudeOfBits_rounded {t : ℤ} {g : ℕ} (hplace : t = -1074 ∨ -1074 ≤ t ∧ 2 ^ 52 ≤ g)
    (hg : g ≤ 2 ^ 53) (hsmall : (t + 1074).toNat * 2 ^ 52 + g < 2047 * 2 ^ 52) {b : ℕ}
    {negative : Bool}
    (hb : b = (t + 1074).toNat * 2 ^ 52 + g + if negative then 2 ^ 63 else 0) :
    signBit b = negative ∧
      ∃ d, magnitudeOfBits b = .finite d ∧ (d.mantissa : ℚ) * 2 ^ d.exponent = g * 2 ^ t := by
  have hsign : signBit b = negative := by
    rw [signBit, twoPow_eq, hb]
    cases negative <;> simp <;> omega
  -- a mantissa that is carried over is one of 53 bits at the next exponent
  have hparts : b / twoPow 52 % 2048 = 0 ∧ b % twoPow 52 = g ∧ t = -1074 ∨
      b / twoPow 52 % 2048 = (t + 1074).toNat + 1 ∧ twoPow 52 + b % twoPow 52 = g ∧ -1074 ≤ t ∨
      b / twoPow 52 % 2048 = (t + 1074).toNat + 2 ∧ b % twoPow 52 = 0 ∧ g = 2 ^ 53 ∧
        -1074 ≤ t := by
    rw [twoPow_eq]
    split_ifs at hb <;> omega
  refine ⟨hsign, ?_⟩
  unfold magnitudeOfBits
  dsimp only
  rcases hparts with ⟨hexponent, hmantissa, rfl⟩ | ⟨hexponent, hmantissa, ht⟩ |
    ⟨hexponent, hmantissa, rfl, ht⟩
  · rw [hexponent, if_neg (by omega), if_pos rfl]
    exact ⟨_, rfl, by rw [hmantissa]⟩
  · rw [hexponent, if_neg (by omega), if_neg (by omega)]
    refine ⟨_, rfl, ?_⟩
    dsimp only
    rw [hmantissa]
    congr 2
    omega
  · rw [hexponent, if_neg (by omega), if_neg (by omega)]
    refine ⟨_, rfl, ?_⟩
    dsimp only
    rw [hmantissa, show (((t + 1074).toNat + 2 : ℕ) : ℤ) - 1075 = t + 1 by omega,
      zpow_add_one₀ (by norm_num), twoPow_eq]
    push_cast
    ring

theorem nearest_eq_unpack (negative : Bool) (num den : ℕ) : nearest negative num den =
    .ofModel (.pack (unpack Format.binary64
      (BitVec.ofNat 64 (nearestBits num den + if negative then 2 ^ 63 else 0)))) := rfl

/-- The double nearest to a quotient stands for the rounded quotient. -/
theorem value_nearest (negative : Bool) {num den : ℕ} (hd : 0 < den)
    (h : rounded (num / den) < 2 ^ (1024 : ℤ)) :
    (nearest negative num den).isFinite = true ∧
      value (nearest negative num den) = withSign (signOf negative) (rounded (num / den)) := by
  rcases Nat.eq_zero_or_pos num with rfl | hn
  · rw [Nat.cast_zero, zero_div, rounded_of_onGrid onGrid_zero]
    have hzero : nearest negative 0 den = ofBits negative 0 := by
      rw [nearest, nearestBits, if_pos rfl]
    rw [hzero, withSign_zero]
    cases negative <;> exact ⟨rfl, rfl⟩
  obtain ⟨t, g, hplace, hg, hbits, hrounded⟩ := nearestBits_rounded hn hd
  have hpower {k : ℕ} (hk : 2 ^ k ≤ g) : t + k < 1024 := by
    refine (zpow_lt_zpow_iff_right₀ (a := (2 : ℚ)) (by norm_num)).mp (lt_of_le_of_lt ?_ h)
    rw [hrounded, add_comm, zpow_add₀ (by norm_num), zpow_natCast]
    exact mul_le_mul_of_nonneg_right (by exact_mod_cast hk) (two_zpow_pos _).le
  have hsmall : (t + 1074).toNat * 2 ^ 52 + g < 2047 * 2 ^ 52 := by
    rcases hplace with rfl | ⟨ht, hlow⟩
    · omega
    · have hlong := hpower hlow
      rcases hg.lt_or_eq with hlt | heq
      · omega
      · have := hpower heq.ge
        omega
  obtain ⟨b, hb⟩ : ∃ b, nearestBits num den + (if negative then 2 ^ 63 else 0) = b := ⟨_, rfl⟩
  have hsum : b = (t + 1074).toNat * 2 ^ 52 + g + if negative then 2 ^ 63 else 0 := by
    rw [← hb, hbits, min_eq_left (by rw [infinityBits, twoPow_eq]; exact hsmall.le)]
  have hlt : b < 2 ^ 64 := by
    split_ifs at hsum <;> omega
  have hnat : (BitVec.ofNat 64 b).toNat = b := by
    rw [BitVec.toNat_ofNat]
    exact Nat.mod_eq_of_lt hlt
  obtain ⟨hsign, d, hd', hvalue⟩ := magnitudeOfBits_rounded hplace hg hsmall hsum
  obtain ⟨hfinite, hexact⟩ := exactValue_of_bits (b := BitVec.ofNat 64 b) (by rw [hnat]; exact hd')
  rw [hnat, hsign, hvalue, ← hrounded] at hexact
  have hcanonical : IsRounded (unpack Format.binary64 (BitVec.ofNat 64 b))
      (withSign (signOf negative) (rounded (num / den))) :=
    ⟨unpack_bits_canonical _, hfinite, hexact⟩
  rw [nearest_eq_unpack, hb]
  refine hcanonical.toDouble ?_
  have hnonneg : 0 ≤ rounded ((num : ℚ) / den) := rounded_nonneg (by positivity)
  exact (abs_withSign _ _).trans_lt ((abs_of_nonneg hnonneg).trans_lt h)

theorem nearestBits_infinite {num den : ℕ} (hd : 0 < den)
    (h : 2 ^ (1024 : ℤ) ≤ rounded (num / den)) : nearestBits num den = infinityBits := by
  have hn : 0 < num := by
    refine Nat.pos_of_ne_zero fun hzero => ?_
    rw [hzero, Nat.cast_zero, zero_div, rounded_of_onGrid onGrid_zero] at h
    exact (two_zpow_pos 1024).not_ge h
  obtain ⟨t, g, hplace, hg, hbits, hrounded⟩ := nearestBits_rounded hn hd
  rw [hbits, infinityBits, twoPow_eq]
  refine min_eq_right ?_
  have hlog : 971 ≤ t := by
    have hle : (2 : ℚ) ^ (1024 : ℤ) ≤ 2 ^ (53 + t) := by
      rw [zpow_add₀ (by norm_num)]
      refine h.trans (hrounded.le.trans ?_)
      exact mul_le_mul_of_nonneg_right (by exact_mod_cast hg) (two_zpow_pos _).le
    have := (zpow_le_zpow_iff_right₀ (a := (2 : ℚ)) (by norm_num)).mp hle
    omega
  have hmantissa : t = 971 → 2 ^ 53 ≤ g := by
    rintro rfl
    rw [hrounded, ← div_le_iff₀ (two_zpow_pos _), ← zpow_sub₀ (by norm_num),
      show (1024 : ℤ) - 971 = 53 by rfl] at h
    exact_mod_cast h
  rcases hlog.lt_or_eq with hlt | heq
  · omega
  · have := hmantissa heq.symm
    omega

/-! ### Whole numbers -/

theorem value_ofNat {n : ℕ} (h : rounded n < 2 ^ (1024 : ℤ)) :
    (ofNat n).isFinite = true ∧ value (ofNat n) = rounded n := by
  have hone : (n : ℚ) / (1 : ℕ) = n := by rw [Nat.cast_one, div_one]
  rw [← hone] at h ⊢
  exact value_nearest false Nat.one_pos h

theorem ofNat_infinite {n : ℕ} (h : 2 ^ (1024 : ℤ) ≤ rounded n) :
    (ofNat n).toModel.unpack = .infinity .positive := by
  have hone : (n : ℚ) / (1 : ℕ) = n := by rw [Nat.cast_one, div_one]
  rw [ofNat, nearest, nearestBits_infinite Nat.one_pos (by rwa [hone])]
  rfl

theorem rounded_lt_of_isFinite {n : ℕ} (h : (ofNat n).isFinite = true) :
    rounded n < 2 ^ (1024 : ℤ) := by
  by_contra hlarge
  have hfinite : (ofNat n).toModel.unpack.isFinite = true := h
  rw [ofNat_infinite (not_lt.mp hlarge)] at hfinite
  cases hfinite

/-! ### Counts -/

theorem ok_iff {x : Float} : Traffic.isValid.ok x = true ↔ x.isFinite = true ∧ 0 ≤ value x := by
  have hfinite : x.isFinite = x.toModel.unpack.isFinite := rfl
  have hle : (0.0 : Float) ≤ x ↔
      Float.Model.UnpackedFloat.le (.zero .positive) x.toModel.unpack = true := decide_eq_true_iff
  rw [Traffic.isValid.ok, Bool.and_eq_true, decide_eq_true_iff, hfinite, hle, value]
  refine and_congr_right fun hfinite => ?_
  rcases zero_or_finite hfinite with ⟨s, h⟩ | ⟨s, m, e, hm, h⟩ <;> rw [h]
  · exact iff_of_true rfl le_rfl
  · have hpos : (0 : ℚ) < m * 2 ^ e := mul_pos (Nat.cast_pos.mpr hm) (two_zpow_pos e)
    cases s with
    | negative => exact iff_of_false nofun (not_le.mpr (neg_lt_zero.mpr hpos))
    | positive => exact iff_of_true rfl hpos.le

end RouteTraffic.Decimal
