import RouteTraffic.Decimal.Places
import RouteTraffic.Proofs.DecimalLiterals

/-! # Doubles with fixed decimals

A number with fixed decimals is written with forty more digits than it needs, rounded correctly, and
the first of these decides whether a unit is added to the rest.  This is rounding twice, which may
lead to the wrong number: what lies just below a half may be rounded to the half first.  No double
lies that close to a half without being it (`half_gap`), so both roundings together are one
(`roundGuarded_expansion`).

The unit is added to the text, from its end, through nines and the point (`increment_pointed`); for
this a text is seen as whole digits before a number of last digits (`pointed_eq`). -/

namespace RouteTraffic

/-! ### Last digits -/

namespace Text

/-- The last digits of a number, as many as asked for. -/
def lastDigits : ℕ → ℕ → List Char
  | 0, _ => []
  | w + 1, n => lastDigits w (n / 10) ++ [(n % 10).digitChar]

theorem length_lastDigits (w n : ℕ) : (lastDigits w n).length = w := by
  induction w generalizing n with
  | zero => rfl
  | succ w ih => rw [lastDigits, List.length_append, ih, List.length_singleton]

theorem lastDigits_ne_nil {w : ℕ} (hw : w ≠ 0) (n : ℕ) : lastDigits w n ≠ [] :=
  List.ne_nil_of_length_pos ((Nat.pos_of_ne_zero hw).trans_eq (length_lastDigits w n).symm)

theorem isDigit_digitChar {d : ℕ} (h : d < 10) : isDigit d.digitChar = true := by
  interval_cases d <;> rfl

theorem isDigit_of_mem_lastDigits {w n : ℕ} {c : Char} (h : c ∈ lastDigits w n) :
    isDigit c = true := by
  induction w generalizing n with
  | zero => cases h
  | succ w ih =>
      rcases List.mem_append.mp h with h | h
      · exact ih h
      · rw [List.mem_singleton.mp h]
        exact isDigit_digitChar (Nat.mod_lt _ (by decide))

theorem lastDigits_add (v w n : ℕ) :
    lastDigits (v + w) n = lastDigits v (n / 10 ^ w) ++ lastDigits w n := by
  induction w generalizing n with
  | zero => rw [Nat.add_zero, Nat.pow_zero, Nat.div_one, lastDigits, List.append_nil]
  | succ w ih =>
      rw [← Nat.add_assoc, lastDigits, ih, lastDigits, Nat.pow_succ', Nat.div_div_eq_div_mul,
        List.append_assoc]

theorem ofDigits_append_lastDigits (ds : List Char) (w n : ℕ) :
    ofDigits (ds ++ lastDigits w n) = ofDigits ds * 10 ^ w + n % 10 ^ w := by
  induction w generalizing n with
  | zero => simp [lastDigits, Nat.mod_one]
  | succ w ih =>
      have hdigit : digitValue (n % 10).digitChar = n % 10 := by
        have := Nat.mod_lt n (show 0 < 10 by decide)
        interval_cases n % 10 <;> rfl
      rw [lastDigits, ← List.append_assoc, ofDigits, List.foldl_append, ← ofDigits, ih,
        List.foldl_cons, List.foldl_nil, hdigit, Nat.pow_succ', Nat.mod_mul]
      ring

theorem paddedDigits_succ {w : ℕ} (hw : 0 < w) (n : ℕ) :
    paddedDigits (w + 1) n = paddedDigits w (n / 10) ++ [(n % 10).digitChar] := by
  unfold paddedDigits
  rcases Nat.lt_or_ge n 10 with hlt | hge
  · obtain ⟨w, rfl⟩ : ∃ k, w = k + 1 := ⟨w - 1, by omega⟩
    rw [digits_of_lt_ten hlt, Nat.div_eq_of_lt hlt, Nat.mod_eq_of_lt hlt,
      digits_of_lt_ten (by decide)]
    simp [List.replicate_succ']
  · rw [digits_of_ten_le hge, List.length_append, List.length_singleton, Nat.add_sub_add_right,
      List.append_assoc]

/-- Padded to so many last digits and one more, a number is written as the digits before them,
with no zero too many, and these. -/
theorem paddedDigits_eq (w n : ℕ) :
    paddedDigits (w + 1) n = digits (n / 10 ^ w) ++ lastDigits w n := by
  induction w generalizing n with
  | zero =>
      have := length_digits_pos n
      rw [Nat.pow_zero, Nat.div_one, lastDigits, List.append_nil, paddedDigits,
        Nat.sub_eq_zero_of_le this, List.replicate_zero, List.nil_append]
  | succ w ih =>
      rw [paddedDigits_succ w.succ_pos, ih, lastDigits, Nat.pow_succ', Nat.div_div_eq_div_mul,
        List.append_assoc]

end Text

namespace Decimal

open Text Json.Numeral

/-- A number of `10 ^ -places` is written as its whole part and the last digits after a point. -/
theorem pointed_eq (places n : ℕ) :
    pointed places n = digits (n / 10 ^ places) ++ fractionText (lastDigits places n) := by
  have hlength : (digits (n / 10 ^ places) ++ lastDigits places n).length - places =
      (digits (n / 10 ^ places)).length := by
    rw [List.length_append, length_lastDigits, Nat.add_sub_cancel]
  unfold pointed
  dsimp only
  rw [paddedDigits_eq, hlength, List.take_left, List.drop_left]
  split_ifs with hplaces
  · rw [hplaces, lastDigits, fractionText, List.append_nil]
  · rw [Json.fractionText_of_ne_nil (lastDigits_ne_nil hplaces n)]

/-! ### Adding a unit -/

theorem foldr_carryInto_false (cs ds : List Char) :
    cs.foldr carryInto (false, ds) = (false, cs ++ ds) := by
  induction cs with
  | nil => rfl
  | cons c cs ih => rw [List.foldr_cons, ih]; rfl

theorem carryInto_digitChar (n : ℕ) (ds : List Char) :
    carryInto (n % 10).digitChar (true, ds) =
      (decide (10 ∣ n + 1), ((n + 1) % 10).digitChar :: ds) := by
  have hcarry : 10 ∣ n + 1 ↔ n % 10 = 9 := by omega
  have hnext : (n + 1) % 10 = (n % 10 + 1) % 10 := by omega
  have hlt := Nat.mod_lt n (show 0 < 10 by decide)
  rw [hnext]
  simp only [hcarry]
  interval_cases n % 10 <;> rfl

/-- Last digits become those of the next number, and a unit is carried if it has no others. -/
theorem foldr_carryInto (w n : ℕ) (ds : List Char) :
    (lastDigits w n).foldr carryInto (true, ds) =
      (decide (10 ^ w ∣ n + 1), lastDigits w (n + 1) ++ ds) := by
  induction w generalizing n ds with
  | zero => simp [lastDigits]
  | succ w ih =>
      rw [lastDigits, List.foldr_append, List.foldr_cons, List.foldr_nil, carryInto_digitChar]
      by_cases h : 10 ∣ n + 1
      · have hdiv : (n + 1) / 10 = n / 10 + 1 := by omega
        have hpow : 10 ^ (w + 1) ∣ n + 1 ↔ 10 ^ w ∣ n / 10 + 1 := by
          rw [← hdiv, Nat.pow_succ, Nat.dvd_div_iff_mul_dvd h, Nat.mul_comm]
        rw [decide_eq_true h, ih, lastDigits, hdiv, List.append_assoc]
        simp only [hpow, List.singleton_append]
      · have hdiv : (n + 1) / 10 = n / 10 := by omega
        have hpow : ¬ 10 ^ (w + 1) ∣ n + 1 := fun hdvd =>
          h ((dvd_pow_self 10 w.succ_ne_zero).trans hdvd)
        rw [decide_eq_false h, foldr_carryInto_false, decide_eq_false hpow, lastDigits, hdiv,
          List.append_assoc, List.singleton_append]

/-- A unit that is carried through all digits of a number is a one in front of them. -/
theorem closeCarry_digits (n : ℕ) (ds : List Char) :
    closeCarry ((digits n).foldr carryInto (true, ds)) = digits (n + 1) ++ ds := by
  induction n using Nat.strongRecOn generalizing ds with
  | ind n ih =>
      rcases Nat.lt_or_ge n 10 with hlt | hge
      · interval_cases n <;> rfl
      · rw [digits_of_ten_le hge, List.foldr_append, List.foldr_cons, List.foldr_nil,
          carryInto_digitChar, digits_of_ten_le (show 10 ≤ n + 1 by omega), List.append_assoc,
          List.singleton_append]
        by_cases h : 10 ∣ n + 1
        · rw [decide_eq_true h, ih _ (by omega), show (n + 1) / 10 = n / 10 + 1 by omega]
        · rw [decide_eq_false h, foldr_carryInto_false, show (n + 1) / 10 = n / 10 by omega]
          rfl

theorem increment_pointed (places n : ℕ) :
    increment (pointed places n) = pointed places (n + 1) := by
  rw [increment, pointed_eq, pointed_eq, List.foldr_append]
  rcases eq_or_ne places 0 with rfl | hplaces
  · rw [Nat.pow_zero, Nat.div_one, Nat.div_one]
    exact closeCarry_digits n []
  · have hlast : (fractionText (lastDigits places n)).foldr carryInto (true, []) =
        (decide (10 ^ places ∣ n + 1), fractionText (lastDigits places (n + 1))) := by
      rw [Json.fractionText_of_ne_nil (lastDigits_ne_nil hplaces _),
        Json.fractionText_of_ne_nil (lastDigits_ne_nil hplaces _), List.foldr_cons,
        foldr_carryInto, List.append_nil]
      cases decide (10 ^ places ∣ n + 1) <;> rfl
    rw [hlast, Nat.succ_div]
    split_ifs with hcarry
    · rw [decide_eq_true hcarry, closeCarry_digits]
    · rw [decide_eq_false hcarry, foldr_carryInto_false, Nat.add_zero]
      rfl

/-! ### Guard digits -/

/-- Half of ten units is what the first digit of the remainder tells. -/
theorem add_half_div (n : ℕ) {unit : ℕ} (h : 0 < unit) :
    (n + 5 * unit) / (unit * 10) =
      if 5 ≤ n / unit % 10 then n / (unit * 10) + 1 else n / (unit * 10) := by
  rw [← Nat.div_div_eq_div_mul, ← Nat.div_div_eq_div_mul, Nat.add_mul_div_right _ _ h]
  split_ifs <;> omega

/-- Forty digits are cut off, and a half of what they count is rounded up. -/
theorem roundGuarded_pointed (places n : ℕ) :
    roundGuarded (pointed (places + guardDigits) n) =
      pointed places ((n + 5 * 10 ^ 39) / (10 ^ 39 * 10)) := by
  have hguard : guardDigits = 40 := rfl
  obtain ⟨kept, hkept⟩ : ∃ kept, kept = n / (10 ^ 39 * 10) := ⟨_, rfl⟩
  obtain ⟨head, hhead⟩ :
      ∃ head, head = digits (kept / 10 ^ places) ++ '.' :: lastDigits places kept := ⟨_, rfl⟩
  have hwide : pointed (places + guardDigits) n = head ++ lastDigits 40 n := by
    rw [hguard, pointed_eq, Json.fractionText_of_ne_nil (lastDigits_ne_nil (by omega) n),
      lastDigits_add, Nat.add_comm places, Nat.pow_add, ← Nat.div_div_eq_div_mul, hhead,
      List.append_assoc, List.cons_append, hkept, Nat.pow_succ]
  have hcut : (head ++ lastDigits 40 n).length - guardDigits = head.length := by
    rw [List.length_append, length_lastDigits, hguard, Nat.add_sub_cancel]
  have hplain :
      (if head.getLast? = some '.' then head.dropLast else head) = pointed places kept := by
    rw [pointed_eq, hhead]
    rcases eq_or_ne places 0 with rfl | hplaces
    · rw [lastDigits, fractionText, List.append_nil, if_pos (by simp)]
      exact List.dropLast_concat
    · rw [Json.fractionText_of_ne_nil (lastDigits_ne_nil hplaces _), if_neg]
      intro hlast
      rw [List.getLast?_append_of_ne_nil _ (List.cons_ne_nil _ _),
        List.getLast?_cons_of_ne_nil (lastDigits_ne_nil hplaces _)] at hlast
      exact absurd (isDigit_of_mem_lastDigits (List.mem_of_getLast? hlast)) (by decide)
  have hfirst : (lastDigits 40 n).head?.any ('5' ≤ ·) = decide (5 ≤ n / 10 ^ 39 % 10) := by
    have hlt := Nat.mod_lt (n / 10 ^ 39) (show 0 < 10 by decide)
    rw [show 40 = 1 + 39 by rfl, lastDigits_add, lastDigits, lastDigits, List.nil_append,
      List.singleton_append, List.head?_cons, Option.any_some]
    interval_cases n / 10 ^ 39 % 10 <;> rfl
  unfold roundGuarded
  dsimp only
  rw [hwide, hcut, List.take_left, List.drop_left, hplain, hfirst, increment_pointed, hkept,
    add_half_div n (by positivity)]
  simp only [decide_eq_true_eq]
  split_ifs <;> rfl

/-! ### Halves -/

/-- Scaled by a power of ten, a double that is below a half is not close to it: either both are
multiples of a power of two that is not too small, or the double is far below all halves. -/
theorem half_gap {m : ℕ} (hm : m < 2 ^ 53) (e : ℤ) {places : ℕ} (hplaces : places ≤ 20) {k : ℕ}
    (h : (m : ℚ) * 2 ^ e * 10 ^ places < k + 1 / 2) :
    (m : ℚ) * 2 ^ e * 10 ^ places + 1 / 2 ^ 126 ≤ k + 1 / 2 := by
  rcases le_or_gt (-126) e with hlarge | hsmall
  · obtain ⟨j, rfl⟩ : ∃ j : ℕ, e = j - 126 := ⟨(e + 126).toNat, by omega⟩
    have hscaled : (m : ℚ) * 2 ^ ((j : ℤ) - 126) * 10 ^ places =
        (m * 2 ^ j * 10 ^ places : ℕ) / 2 ^ 126 := by
      rw [zpow_sub₀ (by norm_num), zpow_natCast]
      push_cast
      ring
    have hhalf : (k : ℚ) + 1 / 2 = ((2 * k + 1) * 2 ^ 125 : ℕ) / 2 ^ 126 := by
      push_cast
      ring
    rw [hscaled, hhalf, div_lt_div_iff_of_pos_right (by positivity), Nat.cast_lt] at h
    rw [hscaled, hhalf, ← add_div, div_le_div_iff_of_pos_right (by positivity)]
    exact_mod_cast h
  · have hmantissa : (m : ℚ) ≤ 2 ^ 53 := by exact_mod_cast hm.le
    have hpower : (2 : ℚ) ^ e ≤ 2 ^ (-126 : ℤ) := zpow_le_zpow_right₀ (by norm_num) hsmall.le
    have hten : (10 : ℚ) ^ places ≤ 10 ^ 20 := pow_le_pow_right₀ (by norm_num) hplaces
    have hsmall : (m : ℚ) * 2 ^ e * 10 ^ places ≤ 2 ^ 53 * 2 ^ (-126 : ℤ) * 10 ^ 20 :=
      mul_le_mul (mul_le_mul hmantissa hpower (two_zpow_pos e).le (by norm_num)) hten
        (by positivity) (by positivity)
    have hk : (0 : ℚ) ≤ k := Nat.cast_nonneg k
    norm_num at hsmall ⊢
    linarith

/-- Rounded to a fine grid first and at a half of its tens then, a number is rounded at a half, if
it is not just below one. -/
theorem round_twice (unit : ℕ) (hfine : 2 ^ 126 ≤ unit * 10) {t : ℚ} (ht : 0 ≤ t)
    (hgap : ∀ k : ℕ, t < k + 1 / 2 → t + 1 / 2 ^ 126 ≤ k + 1 / 2) {n : ℕ}
    (hn : (n : ℤ) = roundEven (t * (unit * 10 : ℕ))) :
    (n + 5 * unit) / (unit * 10) = ⌊t + 1 / 2⌋₊ := by
  obtain ⟨k, hk⟩ : ∃ k, ⌊t + 1 / 2⌋₊ = k := ⟨_, rfl⟩
  obtain ⟨hle, hlt⟩ := (Nat.floor_eq_iff (by linarith)).mp hk
  have hunit : (0 : ℚ) ≤ (unit * 10 : ℕ) := Nat.cast_nonneg _
  have hlow : ((k * (unit * 10) - 5 * unit : ℤ)) ≤ n := by
    rw [hn]
    refine le_roundEven ?_
    have hscaled := mul_le_mul_of_nonneg_right hle hunit
    push_cast at hscaled ⊢
    linarith
  have hhigh : (n : ℚ) < (k + 1) * (unit * 10 : ℕ) - 5 * unit := by
    have hnear := (abs_le.mp (roundEven_near (t * (unit * 10 : ℕ)))).2
    have hbelow := mul_le_mul_of_nonneg_right (hgap k (by linarith)) hunit
    have hstep : (1 : ℚ) ≤ 1 / 2 ^ 126 * (unit * 10 : ℕ) := by
      rw [one_div_mul_eq_div, one_le_div (by positivity)]
      exact_mod_cast hfine
    rw [← hn, Int.cast_natCast] at hnear
    rw [add_mul] at hbelow
    push_cast at hbelow hstep hnear ⊢
    linarith
  have hhigh' : n + 5 * unit < (k + 1) * (unit * 10) := by
    have : (n : ℚ) + 5 * unit < (k + 1) * (unit * 10 : ℕ) := by linarith
    exact_mod_cast this
  rw [hk]
  refine Nat.div_eq_of_lt_le ?_ hhigh'
  have : ((k * (unit * 10) : ℕ) : ℤ) ≤ (n + 5 * unit : ℕ) := by
    push_cast
    linarith
  exact_mod_cast this

/-! ### The text of a double -/

theorem roundGuarded_expansion {d : Binary} (hd : d.mantissa < 2 ^ 53) {places : ℕ}
    (hplaces : places ≤ 20) : roundGuarded (d.expansion (places + guardDigits)) =
      pointed places ⌊(d.num : ℚ) / d.den * 10 ^ places + 1 / 2⌋₊ := by
  have hnonneg : 0 ≤ (d.num : ℚ) / d.den * 10 ^ places := by positivity
  obtain ⟨unit, hunit⟩ : ∃ unit, unit = 10 ^ 39 := ⟨_, rfl⟩
  have hfine : 2 ^ 126 ≤ unit * 10 := by
    rw [hunit]
    norm_num
  have hpower : tenPow (places + guardDigits) = 10 ^ places * (unit * 10) := by
    rw [tenPow_eq, Nat.pow_add, show guardDigits = 39 + 1 by rfl, Nat.pow_succ 10 39, hunit]
  have hscaled : ((d.num * tenPow (places + guardDigits) : ℕ) : ℚ) / d.den =
      (d.num : ℚ) / d.den * 10 ^ places * (unit * 10 : ℕ) := by
    rw [hpower]
    push_cast
    ring
  have hrounded := divNearestEven_eq (d.num * tenPow (places + guardDigits)) d.den_pos
  rw [hscaled] at hrounded
  have hgap (k : ℕ) := half_gap (k := k) hd d.exponent hplaces
  rw [← binary_value] at hgap
  rw [Binary.expansion, roundGuarded_pointed, ← hunit,
    round_twice unit hfine hnonneg hgap hrounded]

theorem fixed_eq {x : Float} (hx : x.isFinite = true) {places : ℕ} (hplaces : places ≤ 20) :
    fixed places x = (if value x < 0 then ['-'] else []) ++
      pointed places ⌊|value x| * 10 ^ places + 1 / 2⌋₊ := by
  obtain ⟨d, hd, hmantissa, -⟩ := magnitude_of_isFinite hx
  have hsign : x < 0.0 ↔ value x < 0 := lt_iff_value hx (y := 0.0) rfl
  have habs : |value x| = (d.num : ℚ) / d.den := by
    rw [value_of_magnitude hd, abs_withSign, abs_of_nonneg (by positivity)]
  unfold fixed
  rw [hd]
  dsimp only
  rw [roundGuarded_expansion hmantissa hplaces, habs]
  simp only [hsign]

/-- A number of `10 ^ -places` as a literal. -/
def pointedLiteral (places n : ℕ) : Literal :=
  ⟨digits (n / 10 ^ places), lastDigits places n, digits_ne_nil _,
    fun _ hc => isDigit_of_mem_digits hc, fun _ hc => isDigit_of_mem_lastDigits hc⟩

theorem pointedLiteral_text (places n : ℕ) : (pointedLiteral places n).text = pointed places n :=
  (pointed_eq places n).symm

theorem pointedLiteral_value (places n : ℕ) :
    (pointedLiteral places n).value = n / 10 ^ places := by
  have hdigits : ofDigits (digits (n / 10 ^ places) ++ lastDigits places n) = n := by
    rw [ofDigits_append_lastDigits, ofDigits_digits, Nat.div_add_mod']
  show ((ofDigits _ : ℕ) : ℚ) / 10 ^ (lastDigits places n).length = _
  rw [length_lastDigits]
  exact congrArg (fun m : ℕ => (m : ℚ) / 10 ^ places) hdigits

/-- **A double with fixed decimals** is written as a minus sign if it is below zero, and a numeral
with exactly these decimals and no zero too many in front.  The numeral stands for the multiple of
`10 ^ -places` that is nearest to the number without its sign, of two the larger one. -/
theorem fixed_rounds {x : Float} (hx : x.isFinite = true) {places : ℕ} (hplaces : places ≤ 20) :
    ∃ l : Literal, fixed places x = (if value x < 0 then ['-'] else []) ++ l.text ∧
      Json.IsWholePart l.whole ∧ l.fraction.length = places ∧
      l.value = ⌊|value x| * 10 ^ places + 1 / 2⌋₊ / 10 ^ places := by
  refine ⟨pointedLiteral places ⌊|value x| * 10 ^ places + 1 / 2⌋₊, ?_, Json.isWholePart_digits _,
    length_lastDigits _ _, pointedLiteral_value _ _⟩
  rw [fixed_eq hx hplaces, pointedLiteral_text]

/-- The unit that is added is carried through the point and beyond the first digit. -/
theorem fixed_rounds_carried :
    let x := nearest true 9996 100
    x.isFinite = true ∧ 1 ≤ 20 ∧ fixed 1 x = "-100.0".toList ∧
      ∃ l : Literal, fixed 1 x = (if value x < 0 then ['-'] else []) ++ l.text ∧
        Json.IsWholePart l.whole ∧ l.fraction.length = 1 ∧
        l.value = ⌊|value x| * 10 ^ 1 + 1 / 2⌋₊ / 10 ^ 1 := by
  intro x
  have hx : x.isFinite = true := by decide +kernel
  exact ⟨hx, by decide, by decide +kernel, fixed_rounds hx (by decide)⟩

/-- The double nearest to `1.005` is a little less than it. -/
example : fixed 2 (nearest false 1005 1000) = "1.00".toList := by decide +kernel

end Decimal

end RouteTraffic
