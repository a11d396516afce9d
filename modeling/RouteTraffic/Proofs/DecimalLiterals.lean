import RouteTraffic.Proofs.JsonNumerals
import RouteTraffic.Proofs.NumeralTexts

/-! # Decimal literals

A decimal literal has digits before the point and may have digits after it.  It is read as the
number that its digits stand for (`Literal.float?_text`). -/

namespace RouteTraffic.Decimal

open Text Json.Numeral

/-- Digits with or without a fraction. -/
structure Literal where
  whole : List Char
  fraction : List Char
  ne_nil : whole ≠ []
  isWhole : ∀ c ∈ whole, isDigit c = true
  isFraction : ∀ c ∈ fraction, isDigit c = true

namespace Literal

variable (l : Literal)

def text : List Char := l.whole ++ fractionText l.fraction

/-- The number that the decimal stands for. -/
def value : ℚ := ofDigits (l.whole ++ l.fraction) / 10 ^ l.fraction.length

/-- What the decimal is read as before it is rounded. -/
def numeral : Numeral := ⟨false, ofDigits (l.whole ++ l.fraction), -l.fraction.length⟩

theorem value_nonneg : 0 ≤ l.value := div_nonneg (Nat.cast_nonneg _) (by positivity)

theorem numeral_value : l.numeral.value = l.value := by
  rw [Numeral.value, numeral, zpow_neg, zpow_natCast, ← div_eq_mul_inv]
  rfl

theorem unsignedNumeral?_text : unsignedNumeral? false l.text = some l.numeral := by
  obtain ⟨whole, fraction, hne, hwhole, hfraction⟩ := l
  have hpoint : ∀ c ∈ (fractionText fraction).head?, isDigit c = false := by
    cases fraction with
    | nil => nofun
    | cons f fs =>
        intro c hc
        obtain rfl := Option.some.inj hc
        rfl
  unfold unsignedNumeral?
  dsimp only [text]
  rw [takeWhile_isDigit_append hwhole hpoint, dropWhile_isDigit_append hwhole hpoint]
  cases fraction with
  | nil => simp [fractionText, hne, exponentPart?, numeral]
  | cons f fs =>
      have htake := List.takeWhile_eq_self_iff.mpr hfraction
      have hdrop := List.dropWhile_eq_nil_iff.mpr hfraction
      simp [fractionText, htake, hdrop, exponentPart?, numeral]

theorem float?_of_digit {d : Char} {rest : List Char} {n : Numeral} (hd : isDigit d = true)
    (h : unsignedNumeral? false (d :: rest) = some n) : float? (d :: rest) = .ok n.toFloat := by
  have hunsigned : unsignedFloat? false (d :: rest) = some n.toFloat := by rw [unsignedFloat?, h]
  have hminus : d ≠ '-' := by
    rintro rfl
    cases hd
  have hplus : d ≠ '+' := by
    rintro rfl
    cases hd
  simp [float?, hminus, hplus, hunsigned]

theorem float?_text : float? l.text = .ok l.numeral.toFloat := by
  obtain ⟨d, ds, hds⟩ := List.exists_cons_of_ne_nil l.ne_nil
  have htext : l.text = d :: (ds ++ fractionText l.fraction) := by rw [text, hds, List.cons_append]
  rw [htext]
  exact float?_of_digit (l.isWhole d (hds ▸ List.mem_cons_self)) (htext ▸ l.unsignedNumeral?_text)

end Literal

end RouteTraffic.Decimal
