import RouteTraffic.Proofs.DoubleValues

/-! # Counts that stay in range

Sums, averages and values in between of counts up to a power of two (`UpTo`).  A sum of counts up to
`2 ^ b` grows with their number, but never beyond `2 ^ (b + 53)` (`UpTo.addCount`), a quotient by a
number of counts does not grow (`UpTo.divideBy`), and what lies between two counts up to a power of
two is one of these again (`UpTo.lerp`). -/

namespace RouteTraffic.Decimal

open Float.Model (Format UnpackedFloat)
open Float.Model.UnpackedFloat

/-- The double is finite, and neither below zero nor above the bound. -/
structure UpTo (bound : ℚ) (x : Float) : Prop where
  isFinite : x.isFinite = true
  nonneg : 0 ≤ value x
  le : value x ≤ bound

theorem UpTo.ok {bound : ℚ} {x : Float} (h : UpTo bound x) : Traffic.isValid.ok x = true :=
  ok_iff.mpr ⟨h.isFinite, h.nonneg⟩

theorem upTo_of_ok {x : Float} (h : Traffic.isValid.ok x = true) : UpTo (value x) x :=
  ⟨(ok_iff.mp h).1, (ok_iff.mp h).2, le_rfl⟩

theorem UpTo.mono {a b : ℚ} {x : Float} (h : UpTo a x) (hab : a ≤ b) : UpTo b x :=
  ⟨h.isFinite, h.nonneg, h.le.trans hab⟩

/-! ### Sums -/

theorem UpTo.add {a b c : ℚ} {x y : Float} (hx : UpTo a x) (hy : UpTo b y)
    (h : rounded (a + b) ≤ c) (hc : c < 2 ^ (1024 : ℤ)) : UpTo c (x + y) := by
  have hlow : 0 ≤ rounded (value x + value y) := rounded_nonneg (add_nonneg hx.nonneg hy.nonneg)
  have hhigh : rounded (value x + value y) ≤ c :=
    (rounded_mono (add_le_add hx.le hy.le)).trans h
  obtain ⟨hfinite, hvalue⟩ := value_add hx.isFinite hy.isFinite
    (by rw [abs_of_nonneg hlow]; exact hhigh.trans_lt hc)
  exact ⟨hfinite, hvalue ▸ hlow, hvalue ▸ hhigh⟩

/-- A bound of the sum of `k` counts up to `2 ^ b`: after `2 ^ 53` of them, one more is too small to
change the sum. -/
def sumBound (b k : ℕ) : ℚ := (min k (2 ^ 53) : ℕ) * 2 ^ (b : ℤ)

theorem sumBound_le {b k i : ℕ} (h : k ≤ 2 ^ i) : sumBound b k ≤ 2 ^ ((b + min i 53 : ℕ) : ℤ) := by
  have hmin : min k (2 ^ 53) ≤ 2 ^ min i 53 := by
    rcases le_total i 53 with hi | hi
    · rw [min_eq_left hi]
      exact (min_le_left _ _).trans h
    · rw [min_eq_right hi]
      exact min_le_right _ _
  rw [Nat.add_comm, Nat.cast_add, zpow_add₀ (by norm_num), zpow_natCast]
  exact mul_le_mul_of_nonneg_right (by exact_mod_cast hmin) (two_zpow_pos _).le

theorem rounded_sumBound (b k : ℕ) : rounded (sumBound b k + 2 ^ (b : ℤ)) ≤ sumBound b (k + 1) := by
  rcases Nat.lt_or_ge k (2 ^ 53) with hlt | hge
  · have hsum : sumBound b k + 2 ^ (b : ℤ) = sumBound b (k + 1) := by
      rw [sumBound, sumBound, min_eq_left hlt.le, min_eq_left hlt]
      push_cast
      ring
    rw [hsum]
    refine rounded_le le_rfl ⟨min (k + 1) (2 ^ 53) , b, ?_, ?_, by omega⟩
    · rw [sumBound]
      push_cast
      rfl
    · rw [abs_of_nonneg (by positivity)]
      exact_mod_cast min_le_right _ _
  · have hfull {n : ℕ} (hn : 2 ^ 53 ≤ n) : sumBound b n = 2 ^ ((b : ℤ) + 53) := by
      rw [sumBound, min_eq_right hn, add_comm, zpow_add₀ (by norm_num)]
      norm_num
    rw [hfull hge, hfull (hge.trans (Nat.le_succ k))]
    exact rounded_le_of_unit (by omega) le_rfl

theorem UpTo.addCount {b k : ℕ} {x y : Float} (hx : UpTo (sumBound b k) x)
    (hy : UpTo (2 ^ (b : ℤ)) y) (h : sumBound b (k + 1) < 2 ^ (1024 : ℤ)) :
    UpTo (sumBound b (k + 1)) (x + y) :=
  hx.add hy (rounded_sumBound b k) h

/-! ### Quotients -/

theorem onGrid_one : OnGrid 1 := by
  exact_mod_cast onGrid_natCast (n := 1) (by norm_num)

theorem one_le_rounded {n : ℕ} (hn : 0 < n) : 1 ≤ rounded n :=
  le_rounded (by exact_mod_cast hn) onGrid_one

theorem div_infinite {x : UnpackedFloat} (hx : x.isFinite = true) :
    ∃ s, div .binary64 x (.infinity .positive) = .zero s := by
  rcases zero_or_finite hx with ⟨s, rfl⟩ | ⟨s, m, e, hm, rfl⟩ <;> exact ⟨_, rfl⟩

theorem UpTo.divideBy {a : ℚ} {x : Float} (hx : UpTo a x) {n : ℕ} (hn : 0 < n) :
    UpTo a (x / ofNat n) := by
  have hone := one_le_rounded hn
  rcases lt_or_ge (rounded n) (2 ^ (1024 : ℤ)) with hlt | hge
  · obtain ⟨hfinite, hvalue⟩ := value_ofNat hlt
    have hlow : 0 ≤ rounded (value x / value (ofNat n)) :=
      rounded_nonneg (div_nonneg hx.nonneg (by rw [hvalue]; linarith))
    have hhigh : rounded (value x / value (ofNat n)) ≤ value x := by
      refine rounded_le ?_ (value_onGrid x)
      rw [hvalue]
      exact div_le_self hx.nonneg hone
    have hrange : |rounded (value x / value (ofNat n))| < 2 ^ (1024 : ℤ) := by
      rw [abs_of_nonneg hlow]
      exact hhigh.trans_lt ((le_abs_self _).trans_lt (abs_value_lt x))
    obtain ⟨hquotient, hvalue'⟩ := value_div hx.isFinite hfinite (by rw [hvalue]; linarith) hrange
    exact ⟨hquotient, hvalue' ▸ hlow, hvalue' ▸ hhigh.trans hx.le⟩
  · -- divided by infinity it is zero
    have hzero : ∃ s, (x / ofNat n).toModel.unpack = .zero s := by
      have hfinite : x.toModel.unpack.isFinite = true := hx.isFinite
      obtain ⟨s, hs⟩ := div_infinite hfinite
      refine ⟨s, ?_⟩
      show (Float.ofModel (.pack (.div .binary64 x.toModel.unpack
        (ofNat n).toModel.unpack))).toModel.unpack = _
      rw [ofNat_infinite hge, hs]
      cases s <;> rfl
    obtain ⟨s, hs⟩ := hzero
    have hvalue : value (x / ofNat n) = 0 := by
      rw [value, hs]
      rfl
    refine ⟨?_, hvalue.ge, hvalue ▸ hx.nonneg.trans hx.le⟩
    show (x / ofNat n).toModel.unpack.isFinite = true
    rw [hs]
    rfl

theorem fraction_upTo {j n : ℕ} (hj : j ≤ n) (hn : 0 < n) (hlt : n ≤ 2 ^ 64) :
    UpTo 1 (ofNat j / ofNat n) := by
  have hsmall {k : ℕ} (hk : k ≤ n) : rounded k < 2 ^ (1024 : ℤ) := by
    have hgrid : rounded k ≤ 2 ^ (64 : ℤ) := by
      refine rounded_le ?_ (onGrid_two_zpow (by norm_num))
      exact_mod_cast hk.trans hlt
    exact hgrid.trans_lt (zpow_lt_zpow_right₀ (by norm_num) (by norm_num))
  obtain ⟨hjfinite, hjvalue⟩ := value_ofNat (hsmall hj)
  obtain ⟨hnfinite, hnvalue⟩ := value_ofNat (hsmall le_rfl)
  have hone := one_le_rounded hn
  have hlow : 0 ≤ rounded (value (ofNat j) / value (ofNat n)) := by
    rw [hjvalue, hnvalue]
    exact rounded_nonneg (div_nonneg (rounded_nonneg (Nat.cast_nonneg j)) (by linarith))
  have hhigh : rounded (value (ofNat j) / value (ofNat n)) ≤ 1 := by
    refine rounded_le ?_ onGrid_one
    rw [hjvalue, hnvalue, div_le_one (by linarith)]
    exact rounded_mono (by exact_mod_cast hj)
  obtain ⟨hfinite, hvalue⟩ := value_div hjfinite hnfinite (by rw [hnvalue]; linarith)
    (by rw [abs_of_nonneg hlow]; exact hhigh.trans_lt (one_lt_zpow₀ (by norm_num) (by norm_num)))
  exact ⟨hfinite, hvalue ▸ hlow, hvalue ▸ hhigh⟩

/-! ### Values in between -/

/-- The way from one count to another, or a fraction of it, leads neither below zero nor beyond the
other. -/
theorem way_between {a b : ℚ} {start stop fraction : Float} (hstart : UpTo a start)
    (hstop : UpTo b stop) (hfraction : UpTo 1 fraction) :
    ((stop - start) * fraction).isFinite = true ∧
      -value start ≤ value ((stop - start) * fraction) ∧
      value ((stop - start) * fraction) ≤ max 0 (rounded (value stop - value start)) := by
  have hlow : -value start ≤ rounded (value stop - value start) :=
    le_rounded (by linarith [hstop.nonneg]) (value_onGrid start).neg
  have hhigh : rounded (value stop - value start) ≤ value stop :=
    rounded_le (by linarith [hstart.nonneg]) (value_onGrid stop)
  obtain ⟨hrange, hrange'⟩ : value start < 2 ^ (1024 : ℤ) ∧ value stop < 2 ^ (1024 : ℤ) :=
    ⟨(le_abs_self _).trans_lt (abs_value_lt start), (le_abs_self _).trans_lt (abs_value_lt stop)⟩
  obtain ⟨hdfinite, hdvalue⟩ := value_sub hstop.isFinite hstart.isFinite
    (abs_lt.mpr ⟨by linarith, by linarith⟩)
  rw [← hdvalue] at hlow hhigh ⊢
  generalize stop - start = d at *
  -- the product lies between zero and the difference, whatever the sign of that
  rcases le_total 0 (value d) with hsign | hsign
  · have hplow : 0 ≤ rounded (value d * value fraction) :=
      rounded_nonneg (mul_nonneg hsign hfraction.nonneg)
    have hphigh : rounded (value d * value fraction) ≤ value d :=
      rounded_le (mul_le_of_le_one_right hsign hfraction.le) (value_onGrid d)
    obtain ⟨hfinite, hvalue⟩ := value_mul hdfinite hfraction.isFinite
      (by rw [abs_of_nonneg hplow]; linarith)
    rw [hvalue]
    exact ⟨hfinite, by linarith [hstart.nonneg], hphigh.trans (le_max_right _ _)⟩
  · have hplow : value d ≤ rounded (value d * value fraction) :=
      le_rounded (le_mul_of_le_one_right hsign hfraction.le) (value_onGrid d)
    have hphigh : rounded (value d * value fraction) ≤ 0 :=
      rounded_le (mul_nonpos_of_nonpos_of_nonneg hsign hfraction.nonneg) onGrid_zero
    obtain ⟨hfinite, hvalue⟩ := value_mul hdfinite hfraction.isFinite
      (by rw [abs_of_nonpos hphigh]; linarith)
    rw [hvalue]
    exact ⟨hfinite, by linarith, hphigh.trans (le_max_left _ _)⟩

/-- Rounding on the way from one count to another leads neither below zero nor beyond a power of two
that both keep to. -/
theorem UpTo.lerp {c : ℕ} (hc : c ≤ 1023) {start stop fraction : Float}
    (hstart : UpTo (2 ^ (c : ℤ)) start) (hstop : UpTo (2 ^ (c : ℤ)) stop)
    (hfraction : UpTo 1 fraction) :
    UpTo (2 ^ (c : ℤ)) (start + (stop - start) * fraction) := by
  have hrange : (2 : ℚ) ^ (c : ℤ) < 2 ^ (1024 : ℤ) := zpow_lt_zpow_right₀ (by norm_num) (by omega)
  obtain ⟨hpfinite, hplow, hphigh⟩ := way_between hstart hstop hfraction
  have hlow : 0 ≤ rounded (value start + value ((stop - start) * fraction)) :=
    rounded_nonneg (by linarith)
  -- the difference may be rounded up, but by less than what is lost again in the sum
  have hsum : value start + value ((stop - start) * fraction) ≤
      2 ^ (c : ℤ) + 2 ^ ((c : ℤ) - 53) := by
    have herror := (abs_le.mp (rounded_error (q := value stop - value start) (e := c) (by omega)
      (abs_le.mpr ⟨by linarith [hstart.le, hstop.nonneg],
        by linarith [hstop.le, hstart.nonneg]⟩))).2
    have hunit : (2 : ℚ) ^ ((c : ℤ) - 54) ≤ 2 ^ ((c : ℤ) - 53) :=
      zpow_le_zpow_right₀ (by norm_num) (by omega)
    have hpos := two_zpow_pos ((c : ℤ) - 53)
    rcases le_max_iff.mp hphigh with hle | hle
    · linarith [hstart.le]
    · linarith [hstop.le]
  have hhigh : rounded (value start + value ((stop - start) * fraction)) ≤ 2 ^ (c : ℤ) := by
    rw [← sub_add_cancel (c : ℤ) 53] at hsum ⊢
    rw [add_sub_cancel_right] at hsum
    exact rounded_le_of_unit (by omega) hsum
  obtain ⟨hfinite, hvalue⟩ := value_add hstart.isFinite hpfinite
    (by rw [abs_of_nonneg hlow]; exact hhigh.trans_lt hrange)
  exact ⟨hfinite, hvalue ▸ hlow, hvalue ▸ hhigh⟩

/-! ### Counts beyond the range -/

/-- The unpacked double is zero, has no sign or is no number. -/
def Unsigned : UnpackedFloat → Prop
  | .finite s _ _ _ | .infinity s => s = .positive
  | .zero _ | .notANumber => True

/-- The double is a valid count, or what these become beyond the range. -/
def IsUnsigned (x : Float) : Prop := Unsigned x.toModel.unpack

theorem IsUnsigned.not_lt_zero {x : Float} (h : IsUnsigned x) : ¬ x < 0 := by
  have hlt : x < 0 ↔ x.toModel.unpack.lt (.zero .positive) = true := decide_eq_true_iff
  rw [hlt]
  unfold IsUnsigned at h
  cases hx : x.toModel.unpack with
  | infinity s =>
      obtain rfl : s = .positive := by rwa [hx] at h
      decide
  | notANumber => decide
  | zero s => nofun
  | finite s m e hm =>
      obtain rfl : s = .positive := by rwa [hx] at h
      nofun

theorem IsRounded.unsigned {x : UnpackedFloat} {q : ℚ} (h : IsRounded x q) (hq : 0 ≤ q) :
    Unsigned x := by
  obtain ⟨-, hfinite, rfl⟩ := h
  rcases zero_or_finite hfinite with ⟨s, rfl⟩ | ⟨s, m, e, hm, rfl⟩
  · trivial
  · have hpos : (0 : ℚ) < m * 2 ^ e := mul_pos (Nat.cast_pos.mpr hm) (two_zpow_pos e)
    cases s with
    | negative => exact absurd hq (not_le.mpr (neg_lt_zero.mpr hpos))
    | positive => rfl

theorem Unsigned.pack {x : UnpackedFloat} (hx : Canonical x) (h : Unsigned x) :
    IsUnsigned (Float.ofModel (.pack x)) := by
  show Unsigned (unpack .binary64 (UnpackedFloat.pack .binary64 x))
  cases x with
  | infinity s =>
      rw [UnpackedFloat.pack, unpack_packedInfinity]
      exact h
  | notANumber => trivial
  | zero s => cases s <;> trivial
  | finite s m e hm =>
      rcases le_or_gt e 971 with he | he
      · rw [unpack_pack_finite hx he]
        exact h
      · rw [unpack_pack_large he]
        exact h

theorem isUnsigned_of_ok {x : Float} (h : Traffic.isValid.ok x = true) : IsUnsigned x :=
  ((unpack_canonical x).isRounded (ok_iff.mp h).1).unsigned (rounded_nonneg (ok_iff.mp h).2)

theorem Unsigned.exactValue_nonneg {x : UnpackedFloat} (h : Unsigned x) : 0 ≤ exactValue x := by
  cases x with
  | finite s m e hm =>
      obtain rfl : s = .positive := h
      exact mul_nonneg (Nat.cast_nonneg m) (two_zpow_pos e).le
  | _ => exact le_rfl

/-- Beyond the range nothing is added any more, unless the sum is no number. -/
theorem unsigned_add_of_not_finite {x : UnpackedFloat} (hx : Unsigned x)
    (hfinite : ¬ x.isFinite = true) (y : UnpackedFloat) :
    Canonical (add .binary64 x y) ∧ Unsigned (add .binary64 x y) := by
  rcases infinity_or_notANumber hfinite with ⟨s, rfl⟩ | rfl
  · obtain rfl : s = .positive := hx
    cases y with
    | infinity s' => cases s' <;> exact ⟨trivial, by trivial⟩
    | notANumber => exact ⟨trivial, trivial⟩
    | zero s' => exact ⟨trivial, rfl⟩
    | finite s' m' e' hm' => exact ⟨trivial, rfl⟩
  · exact ⟨trivial, trivial⟩

theorem unsigned_add {x y : UnpackedFloat} (hx : Canonical x) (hy : Canonical y)
    (hxsign : Unsigned x) (hysign : Unsigned y) :
    Canonical (add .binary64 x y) ∧ Unsigned (add .binary64 x y) := by
  by_cases hxfinite : x.isFinite = true
  · by_cases hyfinite : y.isFinite = true
    · have h := add_isRounded hx hy hxfinite hyfinite
      exact ⟨h.canonical, h.unsigned
        (rounded_nonneg (add_nonneg hxsign.exactValue_nonneg hysign.exactValue_nonneg))⟩
    · rcases infinity_or_notANumber hyfinite with ⟨s, rfl⟩ | rfl
      · rcases zero_or_finite hxfinite with ⟨s', rfl⟩ | ⟨s', m', e', hm', rfl⟩ <;>
          exact ⟨trivial, hysign⟩
      · cases x <;> exact ⟨trivial, trivial⟩
  · exact unsigned_add_of_not_finite hxsign hxfinite y

theorem IsUnsigned.add {x y : Float} (hx : IsUnsigned x) (hy : IsUnsigned y) :
    IsUnsigned (x + y) := by
  obtain ⟨hcanonical, hsign⟩ := unsigned_add (unpack_canonical x) (unpack_canonical y) hx hy
  exact hsign.pack hcanonical

theorem ofNat_unpack {n : ℕ} (hn : 0 < n) :
    (∃ m e hm, (ofNat n).toModel.unpack = .finite .positive m e hm) ∨
      (ofNat n).toModel.unpack = .infinity .positive := by
  rcases lt_or_ge (rounded n) (2 ^ (1024 : ℤ)) with hlt | hge
  · obtain ⟨hfinite, hvalue⟩ := value_ofNat hlt
    have hone := one_le_rounded hn
    have hsign : IsUnsigned (ofNat n) :=
      isUnsigned_of_ok (ok_iff.mpr ⟨hfinite, by rw [hvalue]; linarith⟩)
    unfold IsUnsigned at hsign
    rw [← hvalue, value] at hone
    rcases zero_or_finite hfinite with ⟨s, h⟩ | ⟨s, m, e, hm, h⟩
    · rw [h, exactValue_zero] at hone
      norm_num at hone
    · rw [h] at hsign
      obtain rfl : s = .positive := hsign
      exact Or.inl ⟨m, e, hm, h⟩
  · exact Or.inr (ofNat_infinite hge)

theorem IsUnsigned.divideBy {x : Float} (hx : IsUnsigned x) {n : ℕ} (hn : 0 < n) :
    IsUnsigned (x / ofNat n) := by
  by_cases hfinite : x.isFinite = true
  · exact isUnsigned_of_ok ((UpTo.divideBy ⟨hfinite, hx.exactValue_nonneg, le_rfl⟩ hn).ok)
  · have hdivide : Canonical (div .binary64 x.toModel.unpack (ofNat n).toModel.unpack) ∧
        Unsigned (div .binary64 x.toModel.unpack (ofNat n).toModel.unpack) := by
      unfold IsUnsigned at hx
      rcases infinity_or_notANumber hfinite with ⟨s, h⟩ | h <;> rw [h] at hx ⊢
      · obtain rfl : s = .positive := hx
        rcases ofNat_unpack hn with ⟨m, e, hm, hnumber⟩ | hnumber <;> rw [hnumber]
        · exact ⟨trivial, rfl⟩
        · exact ⟨trivial, trivial⟩
      · exact ⟨trivial, trivial⟩
    exact hdivide.2.pack hdivide.1

/-- From a count the way to what is beyond the range leads beyond it as well. -/
theorem way_beyond {start stop fraction : Float} (hstart : start.isFinite = true)
    (hstop : IsUnsigned stop) (hbeyond : ¬ stop.isFinite = true) (hfraction : UpTo 1 fraction) :
    IsUnsigned ((stop - start) * fraction) := by
  have hdifference : (stop - start).toModel.unpack = .notANumber ∨
      (stop - start).toModel.unpack = .infinity .positive := by
    show unpack .binary64 (pack .binary64 (sub .binary64 stop.toModel.unpack _)) = _ ∨
      unpack .binary64 (pack .binary64 (sub .binary64 stop.toModel.unpack _)) = _
    unfold IsUnsigned at hstop
    rcases infinity_or_notANumber hbeyond with ⟨s, h⟩ | h <;> rw [h] at hstop ⊢
    · obtain rfl : s = .positive := hstop
      have hsub : sub .binary64 (.infinity .positive) start.toModel.unpack =
          .infinity .positive := by
        rcases zero_or_finite hstart with ⟨s', h'⟩ | ⟨s', m', e', hm', h'⟩ <;> rw [h'] <;> rfl
      exact Or.inr (by rw [hsub, UnpackedFloat.pack, unpack_packedInfinity])
    · have hsub : sub .binary64 .notANumber start.toModel.unpack = .notANumber := rfl
      exact Or.inl (by rw [hsub]; rfl)
  have hsign : IsUnsigned fraction := isUnsigned_of_ok hfraction.ok
  have hproduct : Canonical (mul .binary64 (stop - start).toModel.unpack fraction.toModel.unpack) ∧
      Unsigned (mul .binary64 (stop - start).toModel.unpack fraction.toModel.unpack) := by
    unfold IsUnsigned at hsign
    rcases hdifference with h | h <;> rw [h]
    · exact ⟨trivial, trivial⟩
    · rcases zero_or_finite hfraction.isFinite with ⟨s', h'⟩ | ⟨s', m', e', hm', h'⟩ <;>
        rw [h'] at hsign ⊢
      · exact ⟨trivial, trivial⟩
      · obtain rfl : s' = .positive := hsign
        exact ⟨trivial, rfl⟩
  exact hproduct.2.pack hproduct.1

theorem IsUnsigned.lerp {start stop fraction : Float} (hstart : IsUnsigned start)
    (hstop : IsUnsigned stop) (hfraction : UpTo 1 fraction) :
    IsUnsigned (start + (stop - start) * fraction) := by
  by_cases hfinite : start.isFinite = true
  · by_cases hfinite' : stop.isFinite = true
    · obtain ⟨hway, hlow, -⟩ := way_between
        ⟨hfinite, hstart.exactValue_nonneg, le_rfl⟩ ⟨hfinite', hstop.exactValue_nonneg, le_rfl⟩
        hfraction
      have hsum := add_isRounded (unpack_canonical start)
        (unpack_canonical ((stop - start) * fraction)) hfinite hway
      exact (hsum.unsigned (rounded_nonneg (neg_le_iff_add_nonneg'.mp hlow))).pack hsum.canonical
    · exact hstart.add (way_beyond hfinite hstop hfinite' hfraction)
  · obtain ⟨hcanonical, hsign⟩ := unsigned_add_of_not_finite hstart hfinite
      ((stop - start) * fraction).toModel.unpack
    exact hsign.pack hcanonical

end RouteTraffic.Decimal
