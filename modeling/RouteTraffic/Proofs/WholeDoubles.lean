import RouteTraffic.Decimal.Binary64
import Mathlib

/-! # Doubles that are whole numbers

A whole number of at most 53 bits is a double, and a double that is a whole number is the one
nearest to it (`IsWhole.eq_nearest`).  Doubles of this kind are negated and divided without
rounding, the latter where the division leaves no remainder (`nearest_neg`, `nearest_div`).

A normal double has an exponent between that of zero and that of infinity, and a mantissa of 53
bits, the first of which is not stored. -/

namespace RouteTraffic.Decimal

open Float.Model (Format)
open Float.Model.UnpackedFloat

theorem twoPow_eq (n : ℕ) : twoPow n = 2 ^ n := rfl

theorem twoPow_le_twoPow {m n : ℕ} (h : m ≤ n) : twoPow m ≤ twoPow n :=
  Nat.pow_le_pow_right (by decide) h

/-! ### The parts of a pattern of bits -/

theorem unpackMantissa_toNat (b : BitVec 64) :
    (@unpackMantissa Format.binary64 b).toNat = b.toNat % 2 ^ 52 := by
  simp [unpackMantissa, BitVec.extractLsb_toNat]

theorem unpackExponent_toNat (b : BitVec 64) :
    (@unpackExponent Format.binary64 b).toNat = b.toNat / 2 ^ 52 % 2 ^ 11 := by
  simp [unpackExponent, BitVec.extractLsb_toNat, Nat.shiftRight_eq_div_pow]

theorem unpackSign_toNat (b : BitVec 64) :
    (@unpackSign Format.binary64 b).toNat = b.toNat / 2 ^ 63 % 2 := by
  simp [unpackSign, BitVec.extractLsb_toNat, Nat.shiftRight_eq_div_pow]

theorem packComponents_toNat (s : Sign) (e : BitVec 11) (m : BitVec 52) :
    (packComponents Format.binary64 s e m).toNat =
      s.toBitVec.toNat * 2 ^ 63 + e.toNat * 2 ^ 52 + m.toNat := by
  simp only [packComponents, BitVec.toNat_append]
  rw [← Nat.shiftLeft_add_eq_or_of_lt m.isLt, ← Nat.shiftLeft_add_eq_or_of_lt e.isLt]
  simp only [Nat.shiftLeft_eq]
  omega

/-! ### Normal doubles -/

/-- The sign of a double. -/
def signOf (negative : Bool) : Sign := if negative then .negative else .positive

/-- The exponent of a pattern of bits, neither that of zero nor that of infinity. -/
def IsNormal (bits : ℕ) : Prop := 1 ≤ bits / 2 ^ 52 % 2 ^ 11 ∧ bits / 2 ^ 52 % 2 ^ 11 ≤ 2046

theorem ofBitVec_unpackSign (b : BitVec 64) :
    Sign.ofBitVec (@unpackSign Format.binary64 b) = signOf (signBit b.toNat) := by
  have hsign := unpackSign_toNat b
  have hzero : @unpackSign Format.binary64 b = 0#1 ↔ b.toNat / 2 ^ 63 % 2 = 0 := by
    rw [← BitVec.toNat_inj, hsign]
    rfl
  simp only [Sign.ofBitVec, hzero, signOf, signBit, twoPow_eq, beq_iff_eq]
  split_ifs <;> first | rfl | omega

theorem signOf_toNat (negative : Bool) :
    (signOf negative).toBitVec.toNat = if negative then 1 else 0 := by
  cases negative <;> rfl

theorem implicit_toNat (m : BitVec 52) : (1#1 ++ m).toNat = 2 ^ 52 + m.toNat := by
  rw [BitVec.toNat_append, ← Nat.shiftLeft_add_eq_or_of_lt m.isLt]
  rfl

theorem unpack_of_isNormal {b : BitVec 64} (h : IsNormal b.toNat) :
    unpack Format.binary64 b =
      .finite (signOf (signBit b.toNat)) (2 ^ 52 + b.toNat % 2 ^ 52)
        (((b.toNat / 2 ^ 52 % 2 ^ 11 : ℕ) : ℤ) - 1075) (by omega) := by
  obtain ⟨hlow, hhigh⟩ := h
  have hones : @unpackExponent Format.binary64 b ≠ -1#11 := by
    rw [ne_eq, ← BitVec.toNat_inj, unpackExponent_toNat, BitVec.neg_one_eq_allOnes,
      BitVec.toNat_allOnes]
    exact Nat.ne_of_lt (Nat.lt_succ_of_le hhigh)
  have hzero : @unpackExponent Format.binary64 b ≠ 0#11 := by
    rw [ne_eq, ← BitVec.toNat_inj, unpackExponent_toNat]
    exact Nat.ne_of_gt hlow
  simp only [unpack, hones, hzero, if_false, ofBitVec_unpackSign, implicit_toNat,
    unpackMantissa_toNat, unpackExponent_toNat]
  rfl

theorem pack_normal_toNat {s : Sign} {m : ℕ} {e : ℤ} {hpos : 0 < m} (hlow : 2 ^ 52 ≤ m)
    (hhigh : m < 2 ^ 53) (he : -1074 ≤ e) (he' : e ≤ 971) :
    (pack Format.binary64 (.finite s m e hpos)).toNat =
      s.toBitVec.toNat * 2 ^ 63 + (e + 1075).toNat * 2 ^ 52 + (m - 2 ^ 52) := by
  have hlog : m.log2 = 52 := (Nat.log2_eq_iff (by omega)).mpr ⟨hlow, hhigh⟩
  have hbiased : (e + (Format.binary64.exponentBias : ℤ) +
      (Format.binary64.mantissaBitsWithoutImplicit : ℤ)).toNat = (e + 1075).toNat := by
    show (e + 1023 + 52).toNat = _
    omega
  have hfinite : ¬ 2 ^ Format.binary64.exponentBits ≤ (e + 1075).toNat + 1 := by
    show ¬ 2 ^ 11 ≤ _
    omega
  simp only [pack, hbiased, hlog]
  rw [if_neg hfinite, if_pos (by rfl), packComponents_toNat, BitVec.toNat_ofNat,
    BitVec.toNat_ofNat]
  omega

theorem pack_unpack {b : BitVec 64} (h : IsNormal b.toNat) :
    pack Format.binary64 (unpack Format.binary64 b) = b := by
  obtain ⟨hlow, hhigh⟩ := h
  have hb := b.isLt
  rw [unpack_of_isNormal ⟨hlow, hhigh⟩]
  apply BitVec.eq_of_toNat_eq
  rw [pack_normal_toNat (by omega) (by omega) (by omega) (by omega), signOf_toNat]
  have hsign : (if signBit b.toNat = true then 1 else 0) = b.toNat / 2 ^ 63 := by
    simp only [signBit, twoPow_eq, beq_iff_eq]
    split_ifs <;> omega
  rw [hsign]
  omega

/-! ### Whole numbers -/

/-- A whole number without its sign. -/
def IsWhole (x : Float) (n : ℕ) : Prop := ∃ d, magnitude x = .finite d ∧ d.num = n * d.den

theorem isWhole_zeros : IsWhole 0.0 0 ∧ IsWhole (-0.0) 0 := by
  have hnum : (Binary.mk 0 (-1074)).num = 0 * (Binary.mk 0 (-1074)).den := by
    rw [Binary.num, Nat.zero_mul, Nat.zero_mul]
  exact ⟨⟨⟨0, -1074⟩, by rfl, hnum⟩, ⟨⟨0, -1074⟩, by rfl, hnum⟩⟩

theorem shifted_bounds {n : ℕ} (hn : 0 < n) (h : n < 2 ^ 53) :
    n.log2 < 53 ∧ 2 ^ 52 ≤ n * 2 ^ (52 - n.log2) ∧ n * 2 ^ (52 - n.log2) < 2 ^ 53 := by
  have hlog : n.log2 < 53 := (Nat.log2_lt (by omega)).mpr h
  obtain ⟨hlow, hhigh⟩ := (Nat.log2_eq_iff (by omega)).mp (rfl : n.log2 = n.log2)
  have hpos : 0 < 2 ^ (52 - n.log2) := Nat.two_pow_pos _
  refine ⟨hlog, ?_, ?_⟩
  · calc 2 ^ 52 = 2 ^ n.log2 * 2 ^ (52 - n.log2) := by rw [← Nat.pow_add]; congr 1; omega
      _ ≤ n * 2 ^ (52 - n.log2) := Nat.mul_le_mul_right _ hlow
  · calc n * 2 ^ (52 - n.log2) < 2 ^ (n.log2 + 1) * 2 ^ (52 - n.log2) :=
        Nat.mul_lt_mul_of_pos_right hhigh hpos
      _ = 2 ^ 53 := by rw [← Nat.pow_add]; congr 1; omega

theorem lastPlace_whole {n : ℕ} (hn : 0 < n) : lastPlace n 1 = (n.log2 : ℤ) - 52 := by
  have hlow : 2 ^ n.log2 ≤ n := Nat.log2_self_le (by omega)
  have hexp : ((n.log2 : ℤ) - (Nat.log2 1 : ℕ)) = n.log2 := by
    rw [show Nat.log2 1 = 0 from rfl]
    omega
  have hge : ¬ n * twoPow (-(n.log2 : ℤ)).toNat < 1 * twoPow (n.log2 : ℤ).toNat := by
    rw [Int.toNat_natCast, Int.toNat_neg_natCast, twoPow_eq, twoPow_eq, Nat.pow_zero]
    omega
  simp only [lastPlace, hexp, if_neg hge]
  omega

theorem nearestBits_whole {n : ℕ} (hn : 0 < n) (h : n < 2 ^ 53) :
    nearestBits n 1 = (n.log2 + 1022) * 2 ^ 52 + n * 2 ^ (52 - n.log2) := by
  obtain ⟨hlog, -, hhigh⟩ := shifted_bounds hn h
  have hscale : (-((n.log2 : ℤ) - 52)).toNat = 52 - n.log2 := by omega
  have hunit : ((n.log2 : ℤ) - 52).toNat = 0 := by omega
  have hbiased : ((n.log2 : ℤ) - 52 + 1074).toNat = n.log2 + 1022 := by omega
  have hdiv (m : ℕ) : divNearestEven m 1 = m := by
    simp [divNearestEven, Nat.mod_one]
  rw [nearestBits, if_neg (by omega)]
  simp only [lastPlace_whole hn, hscale, hunit, hbiased, twoPow_eq, Nat.pow_zero, Nat.mul_one, hdiv,
    infinityBits]
  omega

/-- What a finite double is: a fraction below the smallest normal double, or a normal one. -/
theorem magnitude_finite {x : Float} {d : Binary} (h : magnitude x = .finite d) :
    x.toBits.toNat / 2 ^ 52 % 2 ^ 11 = 0 ∧ d = ⟨x.toBits.toNat % 2 ^ 52, -1074⟩ ∨
      IsNormal x.toBits.toNat ∧
        d = ⟨2 ^ 52 + x.toBits.toNat % 2 ^ 52,
          ((x.toBits.toNat / 2 ^ 52 % 2 ^ 11 : ℕ) : ℤ) - 1075⟩ := by
  unfold magnitude magnitudeOfBits at h
  dsimp only at h
  split_ifs at h with htop hfraction hzero
  · exact Or.inl ⟨hzero, (Magnitude.finite.inj h).symm⟩
  · refine Or.inr ⟨⟨Nat.pos_of_ne_zero hzero, ?_⟩, (Magnitude.finite.inj h).symm⟩
    have : x.toBits.toNat / 2 ^ 52 % 2 ^ 11 ≠ 2047 := htop
    omega

/-- A mantissa of 53 bits that is a multiple `n * 2 ^ j` determines `j`. -/
theorem log2_of_shifted {n j : ℕ} (hlow : 2 ^ 52 ≤ n * 2 ^ j) (hhigh : n * 2 ^ j < 2 ^ 53) :
    j = 52 - n.log2 ∧ n.log2 ≤ 52 := by
  have hn : 0 < n := Nat.pos_of_mul_pos_right (Nat.lt_of_lt_of_le (Nat.two_pow_pos 52) hlow)
  have hj : j < 53 := by
    have : 2 ^ j ≤ n * 2 ^ j := Nat.le_mul_of_pos_left _ hn
    exact (Nat.pow_lt_pow_iff_right (by decide)).mp (Nat.lt_of_le_of_lt this hhigh)
  have hlog : n.log2 = 52 - j := by
    refine (Nat.log2_eq_iff (by omega)).mpr ⟨?_, ?_⟩
    · refine Nat.le_of_mul_le_mul_right ?_ (Nat.two_pow_pos j)
      rwa [← Nat.pow_add, Nat.sub_add_cancel (by omega)]
    · refine Nat.lt_of_mul_lt_mul_right (a := 2 ^ j) ?_
      rwa [← Nat.pow_add, show 52 - j + 1 + j = 53 by omega]
  omega

section whole
variable {x : Float} {n : ℕ} (h : IsWhole x n)
include h

theorem IsWhole.magnitude_of_zero (hn : n = 0) : ∃ e, magnitude x = .finite ⟨0, e⟩ := by
  obtain ⟨⟨mantissa, e⟩, hd, hnum⟩ := h
  rw [hn, Nat.zero_mul] at hnum
  obtain rfl : mantissa = 0 :=
    (Nat.mul_eq_zero.mp hnum).resolve_right (Nat.ne_of_gt (twoPow_pos _))
  exact ⟨e, hd⟩

theorem IsWhole.zero (hn : n = 0) : x.toBits.toNat % 2 ^ 63 = 0 := by
  obtain ⟨e, he⟩ := h.magnitude_of_zero hn
  rcases magnitude_finite he with ⟨hexp, hd⟩ | ⟨-, hd⟩ <;>
    have hmantissa := congrArg Binary.mantissa hd <;> dsimp only at hmantissa <;> omega

/-- The mantissa of a whole number ends in as many zero bits as its exponent is below zero. -/
theorem IsWhole.normal (hn : 0 < n) (hlt : n < 2 ^ 53) :
    IsNormal x.toBits.toNat ∧
      x.toBits.toNat / 2 ^ 52 % 2 ^ 11 = n.log2 + 1023 ∧
      2 ^ 52 + x.toBits.toNat % 2 ^ 52 = n * 2 ^ (52 - n.log2) := by
  obtain ⟨d, hd, hnum⟩ := h
  have hfraction : x.toBits.toNat % 2 ^ 52 < 2 ^ 52 := Nat.mod_lt _ (Nat.two_pow_pos 52)
  rcases magnitude_finite hd with ⟨-, rfl⟩ | ⟨hnormal, rfl⟩
  · have hsmall : x.toBits.toNat % 2 ^ 52 * 1 = n * twoPow 1074 := hnum
    have : twoPow 1074 ≤ n * twoPow 1074 := Nat.le_mul_of_pos_left _ hn
    have : twoPow 52 ≤ twoPow 1074 := twoPow_le_twoPow (by decide)
    rw [twoPow_eq 52] at this
    omega
  · obtain ⟨b, hb⟩ : ∃ b, x.toBits.toNat / 2 ^ 52 % 2 ^ 11 = b := ⟨_, rfl⟩
    obtain ⟨f, hf⟩ : ∃ f, x.toBits.toNat % 2 ^ 52 = f := ⟨_, rfl⟩
    simp only [Binary.num, Binary.den, twoPow_eq, hb, hf] at hnum hfraction
    -- with a positive exponent the mantissa, doubled at least, would pass 53 bits
    have hexp : ((b : ℤ) - 1075).toNat = 0 := by
      by_contra hne
      rw [show (-((b : ℤ) - 1075)).toNat = 0 by omega, Nat.pow_zero, Nat.mul_one] at hnum
      have : 2 ^ 1 ≤ 2 ^ ((b : ℤ) - 1075).toNat := Nat.pow_le_pow_right (by decide) (by omega)
      have := Nat.mul_le_mul (Nat.le_add_right (2 ^ 52) f) this
      omega
    rw [hexp, Nat.pow_zero, Nat.mul_one] at hnum
    obtain ⟨hj, hlog⟩ := log2_of_shifted (hnum ▸ Nat.le_add_right _ f) (hnum ▸ by omega)
    rw [hb, hf, ← hj]
    exact ⟨hnormal, by omega, hnum⟩

theorem IsWhole.magnitude_of_pos (hn : 0 < n) (hlt : n < 2 ^ 53) :
    magnitude x = .finite ⟨n * 2 ^ (52 - n.log2), -((52 - n.log2 : ℕ) : ℤ)⟩ := by
  obtain ⟨hnormal, hexp, hmantissa⟩ := h.normal hn hlt
  obtain ⟨hlog, -⟩ := shifted_bounds hn hlt
  obtain ⟨d, hd, -⟩ := h
  rcases magnitude_finite hd with ⟨hzero, -⟩ | ⟨-, rfl⟩
  · exact absurd (hzero ▸ hnormal.1) (by decide)
  · have hexponent : ((n.log2 + 1023 : ℕ) : ℤ) - 1075 = -((52 - n.log2 : ℕ) : ℤ) := by omega
    rw [hd, hmantissa, hexp, hexponent]

theorem IsWhole.bits (hlt : n < 2 ^ 53) : x.toBits.toNat % 2 ^ 63 = nearestBits n 1 := by
  rcases Nat.eq_zero_or_pos n with hzero | hpos
  · rw [h.zero hzero, hzero]
    rfl
  · obtain ⟨-, hexp, hmantissa⟩ := h.normal hpos hlt
    rw [nearestBits_whole hpos hlt]
    omega

end whole

/-! ### Whole numbers as doubles -/

theorem eq_of_toBits {x y : Float} (h : x.toBits = y.toBits) : x = y := by
  obtain ⟨⟨xbits, _⟩⟩ := x
  obtain ⟨⟨ybits, _⟩⟩ := y
  obtain rfl : xbits = ybits := h
  rfl

/-- The bits of a whole number with its sign. -/
def wholeBits (negative : Bool) (n : ℕ) : BitVec 64 :=
  BitVec.ofNat 64 (nearestBits n 1 + if negative then 2 ^ 63 else 0)

theorem nearest_eq_pack (negative : Bool) (n : ℕ) :
    nearest negative n 1 = .ofModel (.pack (unpack Format.binary64 (wholeBits negative n))) := rfl

section
variable {n : ℕ} (negative : Bool) (hlt : n < 2 ^ 53)
include hlt

theorem nearestBits_lt : nearestBits n 1 < 2 ^ 63 := by
  rcases Nat.eq_zero_or_pos n with rfl | hpos
  · exact Nat.two_pow_pos 63
  · obtain ⟨hlog, hlow, hhigh⟩ := shifted_bounds hpos hlt
    rw [nearestBits_whole hpos hlt]
    omega

theorem wholeBits_toNat :
    (wholeBits negative n).toNat = nearestBits n 1 + if negative then 2 ^ 63 else 0 := by
  have := nearestBits_lt hlt
  rw [wholeBits, BitVec.toNat_ofNat]
  split_ifs <;> omega

theorem wholeBits_isNormal (hn : 0 < n) :
    IsNormal (wholeBits negative n).toNat := by
  obtain ⟨hlog, hlow, hhigh⟩ := shifted_bounds hn hlt
  rw [wholeBits_toNat negative hlt, nearestBits_whole hn hlt, IsNormal]
  split_ifs <;> omega

theorem unpack_wholeBits (hn : 0 < n) :
    unpack Format.binary64 (wholeBits negative n) =
      .finite (signOf negative) (n * 2 ^ (52 - n.log2)) ((n.log2 : ℤ) - 52)
        (Nat.mul_pos hn (Nat.two_pow_pos _)) := by
  obtain ⟨hlog, hlow, hhigh⟩ := shifted_bounds hn hlt
  have hbits := wholeBits_toNat negative hlt
  rw [nearestBits_whole hn hlt] at hbits
  have hsign : signBit (wholeBits negative n).toNat = negative := by
    rw [hbits, signBit, twoPow_eq]
    cases negative <;> simp <;> omega
  have hmantissa : 2 ^ 52 + (wholeBits negative n).toNat % 2 ^ 52 = n * 2 ^ (52 - n.log2) := by
    rw [hbits]
    split_ifs <;> omega
  have hexponent : (wholeBits negative n).toNat / 2 ^ 52 % 2 ^ 11 = n.log2 + 1023 := by
    rw [hbits]
    split_ifs <;> omega
  rw [unpack_of_isNormal (wholeBits_isNormal negative hlt hn)]
  simp only [hsign, hmantissa, hexponent, Float.Model.UnpackedFloat.finite.injEq, true_and]
  omega

theorem pack_unpack_wholeBits :
    pack Format.binary64 (unpack Format.binary64 (wholeBits negative n)) =
      wholeBits negative n := by
  rcases Nat.eq_zero_or_pos n with rfl | hpos
  · cases negative <;> rfl
  · exact pack_unpack (wholeBits_isNormal negative hlt hpos)

theorem nearest_toBits : (nearest negative n 1).toBits.toBitVec = wholeBits negative n :=
  pack_unpack_wholeBits negative hlt

theorem nearest_unpack (hn : 0 < n) :
    (nearest negative n 1).toModel.unpack =
      .finite (signOf negative) (n * 2 ^ (52 - n.log2)) ((n.log2 : ℤ) - 52)
        (Nat.mul_pos hn (Nat.two_pow_pos _)) := by
  show unpack Format.binary64 (nearest negative n 1).toBits.toBitVec = _
  rw [nearest_toBits negative hlt, unpack_wholeBits negative hlt hn]

theorem IsWhole.eq_nearest {x : Float} (h : IsWhole x n) :
    x = nearest (Decimal.negative x) n 1 := by
  apply eq_of_toBits
  rw [← UInt64.toBitVec_inj, nearest_toBits _ hlt]
  apply BitVec.eq_of_toNat_eq
  have hbits := h.bits hlt
  have hsize : x.toBits.toBitVec.toNat < 2 ^ 64 := x.toBits.toBitVec.isLt
  rw [wholeBits_toNat _ hlt, ← hbits]
  show x.toBits.toNat = _
  have hsign : Decimal.negative x = true ↔ x.toBits.toNat / 2 ^ 63 % 2 = 1 := by
    simp only [Decimal.negative, signBit, twoPow_eq, beq_iff_eq]
  have : x.toBits.toNat < 2 ^ 64 := x.toBits.toBitVec.isLt
  split_ifs with hneg
  · have := hsign.mp hneg
    omega
  · have := mt hsign.mpr hneg
    omega

end

/-! ### Exact arithmetic -/

theorem log2_mul_two_pow {m : ℕ} (hm : 0 < m) (j : ℕ) : (m * 2 ^ j).log2 = m.log2 + j := by
  obtain ⟨hlow, hhigh⟩ := (Nat.log2_eq_iff (by omega)).mp (rfl : m.log2 = m.log2)
  refine (Nat.log2_eq_iff (Nat.ne_of_gt (Nat.mul_pos hm (Nat.two_pow_pos j)))).mpr ⟨?_, ?_⟩
  · rw [Nat.pow_add]
    exact Nat.mul_le_mul_right _ hlow
  · rw [Nat.add_right_comm, Nat.pow_add]
    exact Nat.mul_lt_mul_of_pos_right hhigh (Nat.two_pow_pos j)

theorem shiftRight_exact (m j : ℕ) :
    ExtendedMantissa.mk (m * 2 ^ j) false false >>> j = ⟨m, false, false⟩ := by
  induction j generalizing m with
  | zero =>
      rw [Nat.pow_zero, Nat.mul_one]
      rfl
  | succ j ih =>
      show ExtendedMantissa.shiftRightOne
        (ExtendedMantissa.mk (m * 2 ^ (j + 1)) false false >>> j) = _
      rw [Nat.pow_succ, Nat.mul_comm _ 2, ← Nat.mul_assoc, ih (m * 2)]
      simp [ExtendedMantissa.shiftRightOne]

theorem shiftToTarget_exact {m : ℕ} (j : ℕ) {e : ℤ} (hm : m.log2 = 52) (he : -1074 ≤ e) :
    shiftToTargetExponent Format.binary64 (m * 2 ^ j) (e - j) .exact = (⟨m, false, false⟩, e) := by
  have hpos : 0 < m := Nat.pos_of_ne_zero (by rintro rfl; simp at hm)
  have htarget : Format.binary64.targetExponent
      (Float.Model.totalExponent (m * 2 ^ j) (e - j)) = e := by
    rw [Float.Model.totalExponent, log2_mul_two_pow hpos, hm]
    simp only [Format.targetExponent, Format.mantissaBits, Format.minExponent]
    omega
  rw [shiftToTargetExponent, htarget, shiftToExponent, show (e - (e - j)).toNat = j by omega]
  simp only [ExtendedMantissa.ofMantissaAndAccuracy, shiftRight_exact]
  congr
  omega

theorem roundWithAccuracy_exact {s : Sign} {m : ℕ} (j : ℕ) {e : ℤ} (hm : m.log2 = 52)
    (hpos : 0 < m) (he : -1074 ≤ e) :
    roundWithAccuracy Format.binary64 s (m * 2 ^ j) (e - j) .exact = .finite s m e hpos := by
  -- the mantissa is shifted a second time after rounding; it is in place then
  have hagain := shiftToTarget_exact 0 hm he
  rw [Nat.pow_zero, Nat.mul_one, Int.natCast_zero, Int.sub_zero] at hagain
  rw [roundWithAccuracy, shiftToTarget_exact j hm he]
  simp only [ExtendedMantissa.roundedMantissa, ExtendedMantissa.accuracy,
    Accuracy.roundToNearestEven, hagain]
  rw [dif_neg (Nat.ne_of_gt hpos)]

theorem log2_mul {m n : ℕ} (hm : 0 < m) (hn : 0 < n) :
    m.log2 + n.log2 ≤ (m * n).log2 ∧ (m * n).log2 ≤ m.log2 + n.log2 + 1 := by
  obtain ⟨hmlow, hmhigh⟩ := (Nat.log2_eq_iff (by omega)).mp (rfl : m.log2 = m.log2)
  obtain ⟨hnlow, hnhigh⟩ := (Nat.log2_eq_iff (by omega)).mp (rfl : n.log2 = n.log2)
  have hne : m * n ≠ 0 := Nat.ne_of_gt (Nat.mul_pos hm hn)
  constructor
  · refine (Nat.le_log2 hne).mpr ?_
    rw [Nat.pow_add]
    exact Nat.mul_le_mul hmlow hnlow
  · refine Nat.le_of_lt_succ ((Nat.log2_lt hne).mpr ?_)
    have hlt := Nat.mul_lt_mul'' hmhigh hnhigh
    rwa [← Nat.pow_add, show m.log2 + 1 + (n.log2 + 1) = m.log2 + n.log2 + 1 + 1 by omega] at hlt

section
variable {n d : ℕ} (hd : 0 < d) (hlt : n * d < 2 ^ 53)
include hd hlt

/-- The quotient of two mantissas of 53 bits is computed to 53 bits and more. -/
theorem divCore_exact (hn : 0 < n) :
    divCore Format.binary64 (n * d * 2 ^ (52 - (n * d).log2)) (((n * d).log2 : ℤ) - 52)
        (d * 2 ^ (52 - d.log2)) ((d.log2 : ℤ) - 52) =
      (n * 2 ^ (52 - n.log2) * 2 ^ (n.log2 + d.log2 + 1 - (n * d).log2),
        ((n.log2 : ℤ) - 52) - (n.log2 + d.log2 + 1 - (n * d).log2 : ℕ), .exact) := by
  have hnd : 0 < n * d := Nat.mul_pos hn hd
  have hproduct : (n * d).log2 < 53 := (Nat.log2_lt (by omega)).mpr hlt
  obtain ⟨hlow, hhigh⟩ := log2_mul hn hd
  have htarget : min (((n * d).log2 : ℤ) - 52 - ((d.log2 : ℤ) - 52))
      (Format.binary64.targetExponent
        (Float.Model.totalExponent (n * d * 2 ^ (52 - (n * d).log2)) (((n * d).log2 : ℤ) - 52) -
          Float.Model.totalExponent (d * 2 ^ (52 - d.log2)) ((d.log2 : ℤ) - 52))) =
      ((n * d).log2 : ℤ) - d.log2 - 53 := by
    rw [Float.Model.totalExponent, Float.Model.totalExponent, log2_mul_two_pow hnd,
      log2_mul_two_pow hd]
    simp only [Format.targetExponent, Format.mantissaBits, Format.minExponent]
    omega
  have hshift : (((n * d).log2 : ℤ) - 52 - ((d.log2 : ℤ) - 52) -
      (((n * d).log2 : ℤ) - d.log2 - 53)).toNat = 53 := by omega
  -- the dividend is the divisor times the quotient, so nothing is left after the shift
  have hquotient : n * d * 2 ^ (52 - (n * d).log2) * 2 ^ 53 =
      n * 2 ^ (52 - n.log2) * 2 ^ (n.log2 + d.log2 + 1 - (n * d).log2) *
        (d * 2 ^ (52 - d.log2)) := by
    have hpow : 2 ^ (52 - (n * d).log2) * 2 ^ 53 =
        2 ^ (52 - n.log2) * 2 ^ (n.log2 + d.log2 + 1 - (n * d).log2) * 2 ^ (52 - d.log2) := by
      rw [← Nat.pow_add, ← Nat.pow_add, ← Nat.pow_add]
      congr 1
      omega
    rw [Nat.mul_assoc (n * d), hpow]
    ac_rfl
  have hpos : 0 < d * 2 ^ (52 - d.log2) := Nat.mul_pos hd (Nat.two_pow_pos _)
  simp only [divCore, htarget, hshift, Nat.shiftLeft_eq, hquotient, Nat.mul_div_cancel _ hpos,
    Nat.mul_mod_left, accuracyOfFraction, if_true, Prod.mk.injEq, true_and, and_true]
  omega

end

theorem nearest_div {n d : ℕ} (hd : 0 < d) (hdlt : d < 2 ^ 53) (hlt : n * d < 2 ^ 53) :
    nearest false (n * d) 1 / nearest false d 1 = nearest false n 1 := by
  show Float.ofModel (.pack (Float.Model.UnpackedFloat.div Format.binary64
    (nearest false (n * d) 1).toModel.unpack (nearest false d 1).toModel.unpack)) = _
  rw [nearest_unpack false hdlt hd]
  rcases Nat.eq_zero_or_pos n with rfl | hn
  · rw [Nat.zero_mul]
    rfl
  · have hnlt : n < 2 ^ 53 := Nat.lt_of_le_of_lt (Nat.le_mul_of_pos_right n hd) hlt
    obtain ⟨-, hlow, hhigh⟩ := shifted_bounds hn hnlt
    rw [nearest_unpack false hlt (Nat.mul_pos hn hd), nearest_eq_pack,
      unpack_wholeBits false hnlt hn]
    simp only [Float.Model.UnpackedFloat.div, divCore_exact hd hlt hn]
    rw [roundWithAccuracy_exact _ ((Nat.log2_eq_iff (by omega)).mpr ⟨hlow, hhigh⟩) (by omega)
      (by omega)]
    rfl

theorem nearest_neg {n : ℕ} (hlt : n < 2 ^ 53) : -nearest false n 1 = nearest true n 1 := by
  rcases Nat.eq_zero_or_pos n with rfl | hpos
  · rfl
  · show Float.ofModel (.pack ((nearest false n 1).toModel.unpack.neg)) = _
    rw [nearest_unpack false hlt hpos, nearest_eq_pack, unpack_wholeBits true hlt hpos]
    rfl

end RouteTraffic.Decimal
