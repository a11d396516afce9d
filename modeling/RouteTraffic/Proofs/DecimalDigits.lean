import RouteTraffic.Decimal.Power
import RouteTraffic.Text.Blank
import RouteTraffic.Text.Digits
import Mathlib.Algebra.Order.Ring.Nat
import Mathlib.Data.Nat.Notation

/-! # Numbers and their decimal digits

The digits that are written for a number are read back as it (`ofDigits_digits`), with zeros in
front of them or not (`ofDigits_paddedDigits`), and a factor of ten is a zero behind them
(`digits_mul_tenPow`).  No number but zero has a zero in front. -/

namespace RouteTraffic

theorem Decimal.tenPow_eq (n : ℕ) : Decimal.tenPow n = 10 ^ n := rfl

namespace Text

/-! ### Single digits -/

theorem isDigit_iff {c : Char} : isDigit c = true ↔ 48 ≤ c.toNat ∧ c.toNat ≤ 57 := by
  simp only [isDigit, Bool.and_eq_true, decide_eq_true_eq]
  rfl

theorem isBlank_of_isDigit {c : Char} (h : isDigit c = true) : isBlank c = false := by
  have := isDigit_iff.mp h
  simp only [isBlank, Bool.or_eq_false_iff, Bool.and_eq_false_iff, decide_eq_false_iff_not,
    beq_eq_false_iff_ne]
  omega

theorem isDigit_of_mem_digits {n : ℕ} {c : Char} (h : c ∈ digits n) : isDigit c = true := by
  have hd : c.isDigit = true := Nat.isDigit_of_mem_toDigits (by decide) (by decide) h
  rw [Char.isDigit, Bool.and_eq_true, decide_eq_true_eq, decide_eq_true_eq] at hd
  exact isDigit_iff.mpr hd

theorem isDigit_of_mem_paddedDigits {w n : ℕ} {c : Char} (h : c ∈ paddedDigits w n) :
    isDigit c = true := by
  rcases List.mem_append.mp h with hzero | hdigit
  · rw [(List.mem_replicate.mp hzero).2]
    rfl
  · exact isDigit_of_mem_digits hdigit

/-! ### The digits of a number -/

theorem digits_ne_nil (n : ℕ) : digits n ≠ [] := Nat.toDigits_ne_nil

theorem length_digits_pos (n : ℕ) : 0 < (digits n).length := Nat.length_toDigits_pos

theorem digits_of_lt_ten {n : ℕ} (h : n < 10) : digits n = [n.digitChar] :=
  Nat.toDigits_of_lt_base h

theorem digits_of_ten_le {n : ℕ} (h : 10 ≤ n) :
    digits n = digits (n / 10) ++ [(n % 10).digitChar] :=
  Nat.toDigits_of_base_le (by decide) h

theorem length_digits_le_iff {n k : ℕ} (h : 0 < k) : (digits n).length ≤ k ↔ n < 10 ^ k :=
  Nat.length_toDigits_le_iff (by decide) h

theorem zero_not_head_digits {n : ℕ} (h : 0 < n) : ∀ ds, digits n ≠ '0' :: ds := by
  induction n using Nat.strongRecOn with
  | ind n ih =>
      intro ds hds
      rcases Nat.lt_or_ge n 10 with hlt | hge
      · rw [digits_of_lt_ten hlt, List.cons.injEq, Nat.digitChar_eq_zero] at hds
        omega
      · rw [digits_of_ten_le hge] at hds
        cases hq : digits (n / 10) with
        | nil => exact digits_ne_nil _ hq
        | cons d qs =>
            rw [hq, List.cons_append, List.cons.injEq] at hds
            exact ih (n / 10) (by omega) (by omega) qs (hds.1 ▸ hq)

/-! ### Reading digits -/

theorem ofDigits_eq_ofDigitChars (cs : List Char) : ofDigits cs = Nat.ofDigitChars 10 cs 0 := rfl

theorem ofDigits_digits (n : ℕ) : ofDigits (digits n) = n :=
  Nat.ofDigitChars_ten_toDigits

theorem ofDigits_paddedDigits (w n : ℕ) : ofDigits (paddedDigits w n) = n := by
  rw [ofDigits_eq_ofDigitChars, paddedDigits, Nat.ofDigitChars_append,
    Nat.ofDigitChars_replicate_zero, Nat.mul_zero]
  exact ofDigits_digits n

theorem length_paddedDigits {w n : ℕ} (hw : 0 < w) (h : n < 10 ^ w) :
    (paddedDigits w n).length = w := by
  have := (length_digits_le_iff hw).mpr h
  rw [paddedDigits, List.length_append, List.length_replicate]
  omega

theorem paddedDigits_ne_nil (w n : ℕ) : paddedDigits w n ≠ [] :=
  List.append_ne_nil_of_right_ne_nil _ (digits_ne_nil n)

/-! ### Factors of ten -/

theorem digits_mul_ten {n : ℕ} (h : 0 < n) : digits (n * 10) = digits n ++ ['0'] := by
  rw [digits_of_ten_le (by omega), Nat.mul_div_cancel _ (by decide), Nat.mul_mod_left]
  rfl

theorem digits_mul_tenPow {n : ℕ} (h : 0 < n) (e : ℕ) :
    digits (n * Decimal.tenPow e) = digits n ++ List.replicate e '0' := by
  induction e with
  | zero =>
      rw [Decimal.tenPow_eq, Nat.pow_zero, Nat.mul_one, List.replicate_zero, List.append_nil]
  | succ e ih =>
      rw [Decimal.tenPow_eq, Nat.pow_succ, ← Nat.mul_assoc, ← Decimal.tenPow_eq,
        digits_mul_ten (Nat.mul_pos h (Decimal.tenPow_pos e)), ih, List.append_assoc,
        ← List.replicate_succ']

/-! ### Where digits end -/

section
variable {ds rest : List Char} (hds : ∀ c ∈ ds, isDigit c = true)
  (hrest : ∀ c ∈ rest.head?, isDigit c = false)
include hds hrest

theorem takeWhile_isDigit_append : (ds ++ rest).takeWhile isDigit = ds := by
  rw [List.takeWhile_append_of_pos hds]
  cases rest with
  | nil => exact List.append_nil ds
  | cons c cs =>
      rw [List.takeWhile_cons_of_neg (by rw [hrest c rfl]; decide), List.append_nil]

theorem dropWhile_isDigit_append : (ds ++ rest).dropWhile isDigit = rest := by
  rw [List.dropWhile_append_of_pos hds]
  cases rest with
  | nil => rfl
  | cons c cs => rw [List.dropWhile_cons_of_neg (by rw [hrest c rfl]; decide)]

end

end Text

end RouteTraffic
