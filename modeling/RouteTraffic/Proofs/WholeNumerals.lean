import RouteTraffic.Decimal.Layout
import RouteTraffic.Json.Printer
import RouteTraffic.Proofs.JsonNumerals
import RouteTraffic.Proofs.WholeDoubles

/-! # The numerals of whole doubles

A double that is a whole number of at most 53 bits is written with all its digits and `.0`
(`doubleText_whole`), and one of at most 49 bits is read back from them exactly
(`readNumber_doubleText`): with its fraction it has one digit more, and all of them still fit
into 53 bits, so that the division by ten leaves nothing to round. -/

namespace RouteTraffic

namespace Decimal

open Text

/-! ### The grids of shortest decimals -/

/-- Two multiples of a unit above three are at most two apart only if they are the same. -/
theorem inside_iff {unit n c lower : ℕ} (hunit : 4 ≤ unit)
    (hlower : lower = unit * n - 1 ∨ lower = unit * n - 2) (hn : 0 < n) :
    (lower ≤ unit * c ∧ unit * c ≤ unit * n + 2 ↔ c = n) ∧
      (lower < unit * c ∧ unit * c < unit * n + 2 ↔ c = n) := by
  have hpos : unit ≤ unit * n := Nat.le_mul_of_pos_right _ hn
  rcases Nat.lt_trichotomy c n with hlt | rfl | hgt
  · have : unit * c + unit ≤ unit * n := Nat.mul_le_mul_left unit hlt
    omega
  · omega
  · have : unit * n + unit ≤ unit * c := Nat.mul_le_mul_left unit hgt
    omega

theorem onGrid?_whole (tie : TieRule) {n : ℕ} (j k : ℕ) (hn : 0 < n) :
    onGrid? tie ⟨n * 2 ^ j, -j⟩ k =
      if n / tenPow k * tenPow k = n then some (n / tenPow k) else none := by
  have hexponent : (-(j : ℤ) - 2).toNat = 0 := by omega
  have hexponent' : (-(-(j : ℤ) - 2)).toNat = j + 2 := by omega
  have hgrid : (-(k : ℤ)).toNat = 0 := by omega
  obtain ⟨unit, hunit⟩ : ∃ unit, twoPow (j + 2) = unit := ⟨_, rfl⟩
  have hvalue : 4 * (n * 2 ^ j) = unit * n := by
    rw [← hunit, twoPow_eq, Nat.pow_add, Nat.mul_comm n, ← Nat.mul_assoc, Nat.mul_comm 4]
  have hlarge : 4 ≤ unit := by
    rw [← hunit]
    exact twoPow_le_twoPow (Nat.le_add_left 2 j)
  simp only [onGrid?, roundingInterval, hexponent, hexponent', hgrid, hvalue, hunit,
    Int.toNat_natCast, twoPow_eq 0, tenPow_eq 0, Nat.pow_zero, Nat.mul_one]
  -- the lower end of the interval is nearer to a power of two, which changes nothing here
  obtain ⟨lower, hlower⟩ : ∃ lower, (if n * 2 ^ j = twoPow 52 ∧ -1074 < -(j : ℤ) then
      unit * n - 1 else unit * n - 2) = lower := ⟨_, rfl⟩
  have hcases : lower = unit * n - 1 ∨ lower = unit * n - 2 := by
    rw [← hlower]
    split_ifs <;> simp
  have hinside (c : ℕ) : (if n * 2 ^ j % 2 = 0 then
        decide (lower ≤ c * (unit * tenPow k)) && decide (c * (unit * tenPow k) ≤ unit * n + 2)
      else decide (lower < c * (unit * tenPow k)) &&
        decide (c * (unit * tenPow k) < unit * n + 2)) = decide (c * tenPow k = n) := by
    obtain ⟨hclosed, hopen⟩ := inside_iff (c := c * tenPow k) hlarge hcases hn
    rw [Nat.mul_left_comm c unit, ← Bool.decide_and, ← Bool.decide_and]
    split_ifs
    · exact decide_eq_decide.mpr hclosed
    · exact decide_eq_decide.mpr hopen
  -- the upper of the two candidates is above the number, so it never is the number
  have hnext : (n / tenPow k + 1) * tenPow k ≠ n :=
    Nat.ne_of_gt ((Nat.div_lt_iff_lt_mul (tenPow_pos k)).mp (Nat.lt_succ_self _))
  simp only [hlower, hinside, Nat.mul_div_mul_left _ _ (Nat.lt_of_lt_of_le (by decide) hlarge),
    decide_eq_false hnext]
  by_cases h : n / tenPow k * tenPow k = n
  · rw [decide_eq_true h, if_pos h]
  · rw [decide_eq_false h, if_neg h]

/-! ### Shortest decimals -/

/-- The decimal stands for this whole number. -/
def Scaled.IsWhole (s : Scaled) (n : ℕ) : Prop :=
  0 ≤ s.exponent ∧ s.digits * tenPow s.exponent.toNat = n

theorem Scaled.IsWhole.go {s : Scaled} {n : ℕ} (h : s.IsWhole n) (fuel : ℕ) :
    (normal.go fuel s).IsWhole n := by
  induction fuel generalizing s with
  | zero => exact h
  | succ fuel ih =>
      rw [normal.go]
      split_ifs with hzeros
      · refine ih ⟨Int.add_nonneg h.1 (by decide), ?_⟩
        have hexponent : (s.exponent + 1).toNat = s.exponent.toNat + 1 := by
          have := h.1
          omega
        rw [hexponent, tenPow_eq, Nat.pow_succ, Nat.mul_comm (10 ^ _), ← Nat.mul_assoc,
          Nat.div_mul_cancel (Nat.dvd_of_mod_eq_zero hzeros.2)]
        exact h.2
      · exact h

/-- A whole number has as many digits as the power of ten above it says. -/
theorem decimalExponent_whole {n den : ℕ} (hn : 0 < n) (hden : 0 < den) :
    decimalExponent (n * den) den = (digits n).length := by
  rw [decimalExponent, Nat.mul_right_comm, Nat.mul_div_cancel _ hden, digits_mul_tenPow hn,
    List.length_append, List.length_replicate]
  omega

theorem findSome?_range_le {β : Type} {f : ℕ → Option β} {m i : ℕ} {b : β} (hi : i < m)
    (hb : f i = some b) : ∃ a ≤ i, ∃ c, f a = some c ∧ (List.range m).findSome? f = some c := by
  cases hfind : (List.range m).findSome? f with
  | none =>
      have hnone := List.findSome?_eq_none_iff.mp hfind i (List.mem_range.mpr hi)
      rw [hb] at hnone
      cases hnone
  | some c =>
      obtain ⟨before, a, after, hrange, hc, hbefore⟩ := List.findSome?_eq_some_iff.mp hfind
      refine ⟨a, ?_, c, hc, rfl⟩
      have hsorted := List.pairwise_lt_range (n := m)
      rw [hrange, List.pairwise_append, List.pairwise_cons] at hsorted
      have hmem : i ∈ before ++ a :: after := hrange ▸ List.mem_range.mpr hi
      rcases List.mem_append.mp hmem with hmem | hmem
      · rw [hbefore i hmem] at hb
        cases hb
      · rcases List.mem_cons.mp hmem with rfl | hmem
        · exact Nat.le_refl _
        · exact Nat.le_of_lt (hsorted.2.1.1 i hmem)

/-- The grid of units is the last that is tried, and it has the number itself. -/
theorem shortest_whole (tie : TieRule) {n : ℕ} (j : ℕ) (hn : 0 < n) (hlt : n < 2 ^ 53) :
    (shortest tie ⟨n * 2 ^ j, -j⟩).IsWhole n := by
  have hlength : (digits n).length ≤ 16 := (length_digits_le_iff (by decide)).mpr (by omega)
  have hpos := length_digits_pos n
  have hpower : decimalExponent (Binary.num ⟨n * 2 ^ j, -j⟩) (Binary.den ⟨n * 2 ^ j, -j⟩) =
      (digits n).length := by
    rw [← decimalExponent_whole hn (Binary.den_pos ⟨n * 2 ^ j, -j⟩)]
    congr 1
    simp only [Binary.num, Binary.den, Int.toNat_neg_natCast, Int.neg_neg, Int.toNat_natCast,
      twoPow_eq, Nat.pow_zero, Nat.mul_one]
  have hgrid (i : ℕ) (hi : i < (digits n).length) :
      ((digits n).length : ℤ) - (i + 1) = ((digits n).length - (i + 1) : ℕ) := by omega
  have hunits : onGrid? tie ⟨n * 2 ^ j, -j⟩
      (((digits n).length : ℤ) - (((digits n).length - 1 : ℕ) + 1)) = some n := by
    rw [hgrid _ (by omega), show (digits n).length - ((digits n).length - 1 + 1) = 0 by omega,
      onGrid?_whole tie j 0 hn, if_pos (by rw [tenPow_eq, Nat.pow_zero, Nat.div_one, Nat.mul_one]),
      tenPow_eq, Nat.pow_zero, Nat.div_one]
  obtain ⟨i, hi, s, hs, hfind⟩ := findSome?_range_le (m := 17)
    (f := fun i => (onGrid? tie ⟨n * 2 ^ j, -j⟩ (((digits n).length : ℤ) - (i + 1))).map
      fun c => Scaled.mk c (((digits n).length : ℤ) - (i + 1)))
    (i := (digits n).length - 1) (by omega) (by rw [hunits]; rfl)
  have hmantissa : n * 2 ^ j ≠ 0 := Nat.ne_of_gt (Nat.mul_pos hn (Nat.two_pow_pos j))
  rw [shortest, if_neg hmantissa]
  simp only [hpower, hfind]
  refine Scaled.IsWhole.go ?_ _
  rw [hgrid i (by omega), onGrid?_whole tie j _ hn] at hs
  split_ifs at hs with hmultiple
  · obtain rfl := Option.some.inj hs
    exact ⟨Int.natCast_nonneg _, hmultiple⟩
  · cases hs

/-! ### The text of a whole number -/

theorem Scaled.IsWhole.digits_eq {s : Scaled} {n : ℕ} (h : s.IsWhole n) (hn : 0 < n) :
    s.digits ≠ 0 ∧ Text.digits n = Text.digits s.digits ++ List.replicate s.exponent.toNat '0' := by
  have hpos : 0 < s.digits := by
    refine Nat.pos_of_ne_zero fun hzero => ?_
    have := h.2
    rw [hzero, Nat.zero_mul] at this
    omega
  exact ⟨Nat.ne_of_gt hpos, h.2 ▸ digits_mul_tenPow hpos _⟩

theorem renderFinite_zero (e : ℤ) :
    Json.doubleLayout.renderFinite ⟨0, e⟩ = digits 0 ++ ['.', '0'] := by
  have hzero : shortest .toEven ⟨0, e⟩ = ⟨0, 0⟩ := if_pos rfl
  simp only [Layout.renderFinite, Json.doubleLayout, hzero]
  rfl

theorem renderFinite_whole {n : ℕ} (j : ℕ) (hn : 0 < n) (hlt : n < 2 ^ 53) :
    Json.doubleLayout.renderFinite ⟨n * 2 ^ j, -j⟩ = digits n ++ ['.', '0'] := by
  have hlength : (digits n).length ≤ 16 := (length_digits_le_iff (by decide)).mpr (by omega)
  obtain ⟨s, hs⟩ : ∃ s, shortest .toEven ⟨n * 2 ^ j, -j⟩ = s := ⟨_, rfl⟩
  have hwhole : s.IsWhole n := hs ▸ shortest_whole .toEven j hn hlt
  obtain ⟨hpos, hdigits⟩ := hwhole.digits_eq hn
  have hsize := congrArg List.length hdigits
  rw [List.length_append, List.length_replicate] at hsize
  have hexponent := hwhole.1
  have hlength' := length_digits_pos s.digits
  simp only [Layout.renderFinite, Json.doubleLayout, hs]
  rw [if_pos (Or.inr ⟨by omega, by omega⟩), positionalText, if_pos hexponent, if_neg hpos,
    ← hdigits, if_pos rfl]

end Decimal

namespace Json

open Text Decimal

theorem doubleText_whole {x : Float} {n : ℕ} (h : IsWhole x n) (hlt : n < 2 ^ 53) :
    doubleText x = (if negative x then ['-'] else []) ++ (digits n ++ ['.', '0']) := by
  rcases Nat.eq_zero_or_pos n with rfl | hn
  · obtain ⟨e, hx⟩ := h.magnitude_of_zero rfl
    rw [doubleText, Layout.render, hx]
    exact congrArg _ (renderFinite_zero e)
  · have hx := h.magnitude_of_pos hn hlt
    rw [doubleText, Layout.render, hx]
    exact congrArg _ (renderFinite_whole _ hn hlt)

/-! ### Reading -/

/-- The numeral of a whole number: all its digits, and a zero after the point. -/
def wholeNumeral (n : ℕ) (h : 10 * n ≤ maxUnsigned64) : Numeral where
  whole := digits n
  fraction := ['0']
  power := none
  isWholePart := isWholePart_digits n
  isFraction := List.forall_mem_singleton.mpr rfl
  isReal := Or.inl (List.cons_ne_nil '0' [])
  fits := by
    rw [ofDigits_eq_ofDigitChars, Nat.ofDigitChars_append, ← ofDigits_eq_ofDigitChars,
      ofDigits_digits]
    exact h
  power_le := nofun

theorem wholeNumeral_significand {n : ℕ} (h : 10 * n ≤ maxUnsigned64) :
    (wholeNumeral n h).significand = 10 * n := by
  show ofDigits (digits n ++ ['0']) = _
  rw [ofDigits_eq_ofDigitChars, Nat.ofDigitChars_append, ← ofDigits_eq_ofDigitChars,
    ofDigits_digits]
  rfl

theorem real_tenths (negative : Bool) {n : ℕ} (h : n < 2 ^ 49) :
    real negative (10 * n) (-1) = .ok (nearest negative n 1) := by
  have hdiv : scaleDown (Decimal.ofNat (10 * n)) 1 = nearest false n 1 := by
    rw [scaleDown, if_pos (by decide), Nat.mul_comm]
    exact nearest_div (by decide) (by decide) (by omega)
  rw [real, if_neg (by decide), show (-1 : ℤ).natAbs = 1 from rfl, hdiv]
  cases negative with
  | false => rfl
  | true => exact congrArg Except.ok (nearest_neg (by omega))

theorem readNumber_doubleText {x : Float} {n : ℕ} (h : IsWhole x n) (hlt : n < 2 ^ 49)
    {rest : List Char} (hrest : EndsNumber rest) :
    readNumber (doubleText x ++ rest) = .ok (.real x, rest) := by
  have hx : x = nearest (negative x) n 1 := h.eq_nearest (by omega)
  have hfits : 10 * n ≤ maxUnsigned64 := by
    rw [maxUnsigned64]
    omega
  have hread := (wholeNumeral n hfits).readNumber_text (negative x) hrest
  rw [wholeNumeral_significand] at hread
  rw [doubleText_whole h (by omega), List.append_assoc]
  refine hread.trans ?_
  show (real (negative x) (10 * n) (-1)).map _ = _
  rw [real_tenths _ hlt, ← hx]
  rfl

end Json

end RouteTraffic
