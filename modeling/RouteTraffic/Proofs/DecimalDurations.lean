import RouteTraffic.Settings
import RouteTraffic.Proofs.DecimalLiterals
import RouteTraffic.Proofs.DurationTexts

/-! # Durations with decimals

A decimal in front of a unit is rounded to a double, multiplied by the nanoseconds of the unit and
rounded again, and the fraction of the product is cut off (`parse_withUnit`).

Where the decimal is a whole number of nanoseconds, of 53 bits at most, the product is off by less
than one (`scaled_error`), but if it falls short of the number by however little, a nanosecond is
lost: `1.001us` is read as 1000 nanoseconds.  A nanosecond is gained only from 52 bits on, where
the product may be rounded up to the next number.  Decimals that are doubles themselves lose
nothing (`parse_literal`). -/

namespace RouteTraffic

namespace Decimal

/-! ### The error of two roundings -/

section
variable {v : ℚ} {scale n : ℕ} (h : v * scale = n) (hn : n < 2 ^ 53)
include h hn

theorem le_product_of_le (hup : v ≤ rounded v) : (n : ℚ) ≤ rounded (rounded v * scale) := by
  refine le_rounded ?_ (onGrid_natCast hn.le)
  rw [← h]
  exact mul_le_mul_of_nonneg_right hup (Nat.cast_nonneg _)

theorem product_of_onGrid (hgrid : OnGrid v) : rounded (rounded v * scale) = n := by
  rw [rounded_of_onGrid hgrid, h, rounded_of_onGrid (onGrid_natCast hn.le)]

variable (hv : 0 ≤ v) (hscale : 1 ≤ scale ∧ scale ≤ 3600 * 10 ^ 9)
include hv hscale

omit hn in
/-- In the product the first rounding is off by the 53rd bit at most. -/
theorem scaled_error : |rounded v * scale - n| ≤ n / 2 ^ 53 := by
  have hpos : (0 : ℚ) < scale := Nat.cast_pos.mpr hscale.1
  rcases Nat.eq_zero_or_pos n with rfl | hn
  · have hzero : v = 0 := (mul_eq_zero.mp (h.trans Nat.cast_zero)).resolve_right hpos.ne'
    rw [hzero, rounded_of_onGrid onGrid_zero, Nat.cast_zero, zero_mul, sub_zero, abs_zero, zero_div]
  · have hone : (1 : ℚ) ≤ n := by exact_mod_cast hn
    have hlarge : (scale : ℚ) ≤ 2 ^ (42 : ℤ) := by exact_mod_cast hscale.2.trans (by decide)
    have hlow : 2 ^ (-42 : ℤ) ≤ v := by
      rw [zpow_neg, inv_le_iff_one_le_mul₀ (two_zpow_pos _)]
      exact hone.trans (h ▸ mul_le_mul_of_nonneg_left hlarge hv)
    have hnear : |rounded v - v| ≤ |v| / 2 ^ 53 := rounded_relative <| by
      rw [abs_of_nonneg hv]
      exact (zpow_le_zpow_right₀ (by norm_num) (by norm_num)).trans hlow
    rw [abs_of_nonneg hv] at hnear
    calc |rounded v * scale - n| = |rounded v - v| * scale := by
          rw [← h, ← sub_mul, abs_mul, Nat.abs_cast]
      _ ≤ v / 2 ^ 53 * scale := mul_le_mul_of_nonneg_right hnear hpos.le
      _ = n / 2 ^ 53 := by rw [← h]; ring

theorem le_product : (n : ℚ) - 1 ≤ rounded (rounded v * scale) := by
  obtain ⟨hbelow, -⟩ := abs_le.mp (scaled_error h hv hscale)
  rcases n with _ | n
  · have := rounded_nonneg (mul_nonneg (rounded_nonneg hv) (Nat.cast_nonneg scale))
    push_cast
    linarith
  · have hbit : ((n + 1 : ℕ) : ℚ) ≤ 2 ^ 53 := by exact_mod_cast hn.le
    have hprevious : OnGrid n := onGrid_natCast (by omega)
    push_cast at hbelow hbit ⊢
    rw [add_sub_cancel_right]
    refine le_rounded ?_ hprevious
    linarith

theorem product_le : rounded (rounded v * scale) ≤ n + 1 := by
  obtain ⟨-, habove⟩ := abs_le.mp (scaled_error h hv hscale)
  have hbit : (n : ℚ) ≤ 2 ^ 53 := by exact_mod_cast hn.le
  have hnext : OnGrid (n + 1 : ℕ) := onGrid_natCast hn
  push_cast at hnext
  refine rounded_le ?_ hnext
  linarith

/-- Up to 52 bits there is a double half way to the next number. -/
theorem product_lt (hsmall : n < 2 ^ 52) : rounded (rounded v * scale) < n + 1 := by
  obtain ⟨-, habove⟩ := abs_le.mp (scaled_error h hv hscale)
  have hbit : (n : ℚ) ≤ 2 ^ 52 := by exact_mod_cast hsmall.le
  have hhalf : OnGrid (n + 1 / 2) := by
    refine ⟨2 * n + 1, -1, ?_, ?_, by norm_num⟩
    · push_cast
      norm_num
      ring
    · rw [abs_of_nonneg (by omega)]
      omega
  have hle := rounded_le (q := rounded v * scale) (by linarith) hhalf
  linarith

/-- Cut off, the product is the number or one of its neighbours. -/
theorem floor_product : ⌊rounded (rounded v * scale)⌋₊ =
    if rounded (rounded v * scale) < n then n - 1
    else if rounded (rounded v * scale) < n + 1 then n else n + 1 := by
  have hnonneg := rounded_nonneg (mul_nonneg (rounded_nonneg hv) (Nat.cast_nonneg scale))
  have hlow := le_product h hn hv hscale
  have hhigh := product_le h hn hv hscale
  split_ifs with hshort hexact
  · have hpos : 1 ≤ n := by
      have : (0 : ℚ) < n := hnonneg.trans_lt hshort
      exact_mod_cast this
    rw [Nat.floor_eq_iff hnonneg, Nat.cast_sub hpos]
    push_cast
    exact ⟨hlow, by linarith⟩
  · exact (Nat.floor_eq_iff hnonneg).mpr ⟨not_lt.mp hshort, hexact⟩
  · rw [Nat.floor_eq_iff hnonneg]
    push_cast
    exact ⟨not_lt.mp hexact, by linarith⟩

end

end Decimal

/-! ### Reading -/

namespace Duration

open Text Decimal

/-- A decimal in front of a unit. -/
def withUnit (l : Literal) (u : TimeUnit) : String := String.ofList (l.text ++ u.suffix.toList)

/-- What is left of the decimal as a number of nanoseconds after both roundings. -/
def product (l : Literal) (u : TimeUnit) : ℚ := rounded (rounded l.value * u.scale)

theorem product_nonneg (l : Literal) (u : TimeUnit) : 0 ≤ product l u :=
  rounded_nonneg (mul_nonneg (rounded_nonneg l.value_nonneg) (Nat.cast_nonneg _))

theorem trim_withUnit (l : Literal) (u : TimeUnit) :
    trim (withUnit l u).toList = l.text ++ u.suffix.toList := by
  obtain ⟨d, ds, hds⟩ := List.exists_cons_of_ne_nil l.ne_nil
  rw [withUnit, String.toList_ofList]
  refine trim_of_ends (fun c hc => ?_) fun c hc => ?_
  · rw [Literal.text, hds] at hc
    obtain rfl : d = c := Option.some.inj hc
    exact isBlank_of_isDigit (l.isWhole d (hds ▸ List.mem_cons_self))
  · rw [List.getLast?_append_of_ne_nil _ u.suffix_ne_nil] at hc
    exact (not_of_isUnitLetter (isUnitLetter_of_mem (List.mem_of_getLast? hc))).2.2

theorem parse_withUnit {l : Literal} {u : TimeUnit} (h : product l u < 2 ^ 64) :
    parse (withUnit l u) = .ok ⌊product l u⌋₊ := by
  obtain ⟨hunit, hscale⟩ := u.value_nanos
  have hlarge : (2 : ℚ) ^ 64 < 2 ^ (1024 : ℤ) := by
    rw [← zpow_natCast]
    exact zpow_lt_zpow_right₀ (by norm_num) (by norm_num)
  have hone : (1 : ℚ) ≤ u.scale := by exact_mod_cast u.scale_bounds.1
  have hle : rounded l.value ≤ product l u :=
    le_rounded (le_mul_of_one_le_right (rounded_nonneg l.value_nonneg) hone) (rounded_onGrid _)
  obtain ⟨hfinite, hvalue⟩ := l.numeral.value_toFloat (by
    rw [l.numeral_value]
    exact (hle.trans_lt h).trans hlarge)
  have hcount : value l.numeral.toFloat = rounded l.value := by rw [hvalue, l.numeral_value]; rfl
  let r : Reading (withUnit l u) :=
    ⟨l.text, [], u, l.numeral.toFloat, by rw [trim_withUnit, List.append_nil], nofun,
      l.float?_text, hfinite, hcount ▸ rounded_nonneg l.value_nonneg⟩
  have hproduct : rounded (value l.numeral.toFloat * value u.nanos) = product l u := by
    rw [hcount, hscale, product]
  obtain ⟨hfinite', hvalue'⟩ := value_mul hfinite hunit (by
    rw [hproduct, abs_of_nonneg (product_nonneg l u)]
    exact h.trans hlarge)
  rw [r.parse_eq, Reading.nanos, if_pos hfinite', hvalue', hproduct]
  have hfloor : ⌊product l u⌋₊ < 2 ^ 64 := (Nat.floor_lt (product_nonneg l u)).mpr (by exact_mod_cast h)
  rw [min_eq_left (by omega)]

end Duration

namespace Settings

open Duration

theorem wholeMillis_natCast (m : ℕ) : (⟨m⟩ : Span).wholeMillis = (m / 1000000 : ℕ) := rfl

/-- A setting is used with the nanoseconds that it is read as, from a millisecond on. -/
theorem spanOf_of_parse {text : String} {m : ℕ} (h : parse text = .ok m) (key : String) :
    spanOf key text = if m < 1000000 then .error (.zero key) else .ok ⟨m⟩ := by
  have hmillis : ((m / 1000000 : ℕ) : ℤ) ≤ 0 ↔ m < 1000000 := by omega
  simp only [spanOf, durationOf, h, bind, Except.bind, wholeMillis_natCast, hmillis]

end Settings

namespace Duration

open Text Decimal

/-- **Decimals that are a whole number of nanoseconds** are read as this number if the product lies
between it and the next one.  If the product falls short of it they are one less, and of a number of
whole milliseconds a millisecond is missing in the setting then; this does not happen to decimals
that are doubles, or are rounded upwards to one.  If the product reaches the next number, as it may
from 52 bits on, they are one more. -/
theorem parse_literal (l : Literal) (u : TimeUnit) {n : ℕ} (h : l.value * u.scale = n)
    (hn : n < 2 ^ 53) :
    ∃ m, parse (withUnit l u) = .ok m ∧
      m = (if product l u < n then n - 1 else if product l u < n + 1 then n else n + 1) ∧
      (n < 2 ^ 52 → m ≤ n) ∧ (l.value ≤ rounded l.value → n ≤ m) ∧ (OnGrid l.value → m = n) ∧
      (∀ key, Settings.spanOf key (withUnit l u) =
        if m < 1000000 then .error (.zero key) else .ok ⟨m⟩) ∧
      ∀ k, n = 1000000 * k → (⟨m⟩ : Span).wholeMillis = if m < n then (k : ℤ) - 1 else k := by
  have hfloor : ⌊product l u⌋₊ = _ := floor_product h hn l.value_nonneg u.scale_bounds
  have hparse := parse_withUnit (l := l) (u := u) <| by
    have hbit : (n : ℚ) ≤ 2 ^ 53 := by exact_mod_cast hn.le
    exact (product_le h hn l.value_nonneg u.scale_bounds).trans_lt (by linarith)
  rw [← product] at hfloor
  rw [hfloor] at hparse
  refine ⟨_, hparse, rfl, fun hsmall => ?_, fun hup => ?_, fun hgrid => ?_,
    Settings.spanOf_of_parse hparse, fun k hk => ?_⟩
  · have hlt : product l u < n + 1 := product_lt h hn l.value_nonneg u.scale_bounds hsmall
    rw [if_pos hlt]
    split_ifs <;> omega
  · have hle : (n : ℚ) ≤ product l u := le_product_of_le h hn hup
    rw [if_neg (not_lt.mpr hle)]
    split_ifs <;> omega
  · rw [product, product_of_onGrid h hn hgrid, if_neg (lt_irrefl _), if_pos (by linarith)]
  · rw [Settings.wholeMillis_natCast]
    split_ifs <;> omega

/-- The decimal `1.5`, a double. -/
def oneAndAHalf : Literal :=
  ⟨['1'], ['5'], List.cons_ne_nil _ _, List.all_eq_true.mp rfl, List.all_eq_true.mp rfl⟩

theorem parse_literal_double :
    oneAndAHalf.value * TimeUnit.minute.scale = (90000000000 : ℕ) ∧ 90000000000 < 2 ^ 53 ∧
      parse (withUnit oneAndAHalf .minute) = .ok 90000000000 := by
  have h : oneAndAHalf.value * TimeUnit.minute.scale = (90000000000 : ℕ) := by decide +kernel
  have hn : 90000000000 < 2 ^ 53 := by decide
  have hgrid : OnGrid oneAndAHalf.value := ⟨3, -1, by decide +kernel, by decide, by decide⟩
  obtain ⟨m, hparse, -, -, -, hexact, -⟩ := parse_literal oneAndAHalf .minute h hn
  exact ⟨h, hn, hexact hgrid ▸ hparse⟩

/-- The decimal `1.001`, whose double is a little less. -/
def oneAndAThousandth : Literal :=
  ⟨['1'], ['0', '0', '1'], List.cons_ne_nil _ _, List.all_eq_true.mp rfl, List.all_eq_true.mp rfl⟩

/-- A nanosecond is lost, and a millisecond of an interval with it. -/
theorem parse_literal_short :
    withUnit oneAndAThousandth .microsecondAscii = "1.001us" ∧
      oneAndAThousandth.value * TimeUnit.microsecondAscii.scale = (1001 : ℕ) ∧
      parse "1.001us" = .ok 1000 ∧
      withUnit oneAndAThousandth .second = "1.001s" ∧
      oneAndAThousandth.value * TimeUnit.second.scale = (1000000 * 1001 : ℕ) ∧
      Settings.seriesConfig { interval := "1.001s" } =
        .ok { window := .ofSeconds 600, interval := ⟨1000999999⟩, smoothing := 3 } ∧
      (⟨1000999999⟩ : Span).wholeMillis = 1000 :=
  ⟨rfl, by decide +kernel, by decide +kernel, rfl, by decide +kernel, rfl, rfl⟩

/-- From 52 bits on the product may be rounded up to the next number. -/
example : parse "8389125.326624931s" = .ok 8389125326624932 := by decide +kernel

end Duration

end RouteTraffic
