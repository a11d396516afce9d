import RouteTraffic.Json.Number
import RouteTraffic.Proofs.DecimalDigits
import Mathlib.Data.Int.Notation
import Mathlib.Tactic.SplitIfs

/-! # Numerals of JSON texts

A number of a JSON text has digits before the point, may have digits after it, and may have a power
of ten.  With one of the latter two it is a double (`Numeral`), and is read as its digits scaled by
a power of ten (`Numeral.readNumber_text`); a value that nobody asks for is skipped over in the
same way (`Numeral.skipNumber_text`).  With neither it is a whole number
(`readNumber_signedDigits`). -/

namespace RouteTraffic.Json

open Text

/-- The characters that may follow a number: none that would belong to it. -/
def EndsNumber (rest : List Char) : Prop :=
  ∀ c ∈ rest.head?, isDigit c = false ∧ c ≠ '.' ∧ c ≠ 'e' ∧ c ≠ 'E'

/-- Digits that a number may begin with: there are some, and no zero leads others. -/
structure IsWholePart (ds : List Char) : Prop where
  isDigit : ∀ c ∈ ds, isDigit c = true
  ne_nil : ds ≠ []
  not_led : ∀ c cs, ds ≠ '0' :: c :: cs

theorem isWholePart_digits (n : ℕ) : IsWholePart (digits n) := by
  refine ⟨fun c hc => isDigit_of_mem_digits hc, digits_ne_nil n, fun c cs hled => ?_⟩
  rcases Nat.eq_zero_or_pos n with rfl | hpos
  · cases hled
  · exact zero_not_head_digits hpos _ hled

theorem isWholePart_take {n k : ℕ} (hn : 0 < n) (hk : 0 < k) : IsWholePart ((digits n).take k) := by
  obtain ⟨k, rfl⟩ : ∃ j, k = j + 1 := ⟨k - 1, by omega⟩
  obtain ⟨d, ds, hds⟩ := List.exists_cons_of_ne_nil (digits_ne_nil n)
  refine ⟨fun c hc => isDigit_of_mem_digits (List.mem_of_mem_take hc), by simp [hds], ?_⟩
  intro c cs hled
  rw [hds, List.take_succ_cons, List.cons.injEq] at hled
  exact zero_not_head_digits hn ds (hled.1 ▸ hds)

/-- A number that is written as a double: its digits before and after the point, and its power of
ten. -/
structure Numeral where
  whole : List Char
  fraction : List Char
  power : Option ℤ
  isWholePart : IsWholePart whole
  isFraction : ∀ c ∈ fraction, isDigit c = true
  isReal : fraction ≠ [] ∨ power ≠ none
  /-- All digits are taken into the significand. -/
  fits : ofDigits (whole ++ fraction) ≤ maxUnsigned64
  power_le : ∀ p ∈ power, p.natAbs ≤ maxExponent

namespace Numeral

/-- The digits after their point, if there are any. -/
def fractionText : List Char → List Char
  | [] => []
  | fs => '.' :: fs

/-- The power of ten after its letter, if there is one. -/
def powerText : Option ℤ → List Char
  | none => []
  | some p => 'e' :: (if p < 0 then '-' else '+') :: digits p.natAbs

/-- The text of a numeral. -/
def text (n : Numeral) : List Char := n.whole ++ (fractionText n.fraction ++ powerText n.power)

/-- All digits as one number. -/
def significand (n : Numeral) : ℕ := ofDigits (n.whole ++ n.fraction)

/-- The power of ten of the last digit. -/
def exponent (n : Numeral) : ℤ := n.power.getD 0 - n.fraction.length

end Numeral

theorem fractionText_of_ne_nil {fs : List Char} (h : fs ≠ []) :
    Numeral.fractionText fs = '.' :: fs := by
  cases fs with
  | nil => exact absurd rfl h
  | cons f fs => rfl

/-! ### Reading -/

theorem le_ofDigitChars (ds : List Char) (v : ℕ) : v ≤ Nat.ofDigitChars 10 ds v := by
  induction ds generalizing v with
  | nil => exact Nat.le_refl v
  | cons d ds ih =>
      have hnext : v ≤ 10 * v + (d.toNat - '0'.toNat) := by omega
      exact Nat.le_trans hnext (ih _)

/-- Digits whose number fits into 64 bits are all taken into the significand. -/
theorem accumulate_eq {ds : List Char} {v : ℕ} (h : Nat.ofDigitChars 10 ds v ≤ maxUnsigned64) :
    accumulate v ds = (Nat.ofDigitChars 10 ds v, []) := by
  induction ds generalizing v with
  | nil => rfl
  | cons d ds ih =>
      have hnext : 10 * v + digitValue d ≤ maxUnsigned64 := Nat.le_trans (le_ofDigitChars ds _) h
      rw [accumulate, if_pos hnext]
      exact ih h

theorem IsWholePart.append_ne_minus {ds : List Char} (h : IsWholePart ds) (rest cs : List Char) :
    ds ++ rest ≠ '-' :: cs := by
  obtain ⟨c, ds', rfl⟩ := List.exists_cons_of_ne_nil h.ne_nil
  intro hcs
  have hminus := h.isDigit c List.mem_cons_self
  rw [(List.cons.inj hcs).1] at hminus
  cases hminus

theorem IsWholePart.match_eq {β : Type} {ds : List Char} (missing led : β) (f : List Char → β) :
    IsWholePart ds → (match ds with
      | [] => missing
      | '0' :: _ :: _ => led
      | ds => f ds) = f ds := by
  intro h
  split
  · exact absurd rfl h.ne_nil
  · exact absurd rfl (h.not_led _ _)
  · rfl

theorem readNumber_whole (negative : Bool) {ds : List Char} (h : IsWholePart ds)
    (hfits : ofDigits ds ≤ maxUnsigned64) {rest : List Char}
    (hrest : ∀ c ∈ rest.head?, isDigit c = false) :
    readNumber ((if negative then ['-'] else []) ++ (ds ++ rest)) =
      readTail negative (ofDigits ds) 0 rest := by
  have htake := takeWhile_isDigit_append h.isDigit hrest
  have hdrop := dropWhile_isDigit_append h.isDigit hrest
  have hminus := h.append_ne_minus rest
  have hread : readTail negative (accumulate 0 ds).1 (accumulate 0 ds).2.length rest =
      readTail negative (ofDigits ds) 0 rest := by
    rw [accumulate_eq hfits]
    rfl
  cases negative with
  | false =>
      simp only [Bool.false_eq_true, if_false, List.nil_append, readNumber]
      rw [htake, hdrop]
      exact (IsWholePart.match_eq _ _ _ h).trans hread
  | true =>
      simp only [if_true, List.cons_append, List.nil_append, readNumber, htake, hdrop]
      exact (IsWholePart.match_eq _ _ _ h).trans hread

theorem readFraction_digits (negative : Bool) {v : ℕ} (start : ℤ) {fs : List Char}
    (hdigit : ∀ c ∈ fs, isDigit c = true) (hne : fs ≠ [])
    (hfits : Nat.ofDigitChars 10 fs v ≤ maxUnsigned64) {rest : List Char}
    (hrest : ∀ c ∈ rest.head?, isDigit c = false) :
    readFraction negative v start (fs ++ rest) =
      readOptionalExponent negative (Nat.ofDigitChars 10 fs v) (start - fs.length) rest := by
  simp only [readFraction, takeWhile_isDigit_append hdigit hrest,
    dropWhile_isDigit_append hdigit hrest, if_neg hne, accumulate_eq hfits, List.length_nil,
    Nat.sub_zero]

theorem readExponent_power (negative : Bool) (v : ℕ) (start : ℤ) {p : ℤ}
    (hp : p.natAbs ≤ maxExponent) {rest : List Char} (hrest : EndsNumber rest) :
    readExponent negative v start ((if p < 0 then '-' else '+') :: (digits p.natAbs ++ rest)) =
      (real negative v (start + p)).map fun x => (x, rest) := by
  have hdigit := fun c => isDigit_of_mem_digits (n := p.natAbs) (c := c)
  have htake := takeWhile_isDigit_append hdigit fun c hc => (hrest c hc).1
  have hdrop := dropWhile_isDigit_append hdigit fun c hc => (hrest c hc).1
  split_ifs with hneg
  · simp only [readExponent, htake, hdrop, if_neg (digits_ne_nil _), ofDigits_digits,
      if_neg (Nat.not_lt.mpr hp), if_true, show start - (p.natAbs : ℤ) = start + p by omega]
  · simp only [readExponent, htake, hdrop, if_neg (digits_ne_nil _), ofDigits_digits,
      if_neg (Nat.not_lt.mpr hp), Bool.false_eq_true, if_false,
      show start + (p.natAbs : ℤ) = start + p by omega]

theorem readOptionalExponent_power (negative : Bool) (v : ℕ) (start : ℤ) {power : Option ℤ}
    (hp : ∀ p ∈ power, p.natAbs ≤ maxExponent) {rest : List Char} (hrest : EndsNumber rest) :
    readOptionalExponent negative v start (Numeral.powerText power ++ rest) =
      (real negative v (start + power.getD 0)).map fun x => (x, rest) := by
  cases power with
  | some p => exact readExponent_power negative v start (hp p rfl) hrest
  | none =>
      rw [Numeral.powerText, List.nil_append, Option.getD_none, Int.add_zero]
      cases rest with
      | nil => rfl
      | cons c cs =>
          obtain ⟨-, -, he, he'⟩ := hrest c rfl
          simp only [readOptionalExponent, he, he', decide_false, Bool.or_false, Bool.false_eq_true,
            if_false]

theorem powerText_isDigit (power : Option ℤ) {rest : List Char} (hrest : EndsNumber rest) :
    ∀ c ∈ (Numeral.powerText power ++ rest).head?, isDigit c = false := by
  cases power with
  | none => exact fun c hc => (hrest c hc).1
  | some p =>
      intro c hc
      obtain rfl : 'e' = c := Option.some.inj hc
      rfl

/-- **A numeral is read as its digits, scaled by its power of ten.** -/
theorem Numeral.readNumber_text (n : Numeral) (negative : Bool) {rest : List Char}
    (hrest : EndsNumber rest) :
    readNumber ((if negative then ['-'] else []) ++ (n.text ++ rest)) =
      (real negative n.significand n.exponent).map fun x => (.real x, rest) := by
  obtain ⟨ds, fs, power, hwhole, hfraction, hreal, hfits, hpower⟩ := n
  have hsplit : ofDigits (ds ++ fs) = Nat.ofDigitChars 10 fs (ofDigits ds) :=
    Nat.ofDigitChars_append 0
  have hwholeFits : ofDigits ds ≤ maxUnsigned64 :=
    Nat.le_trans (hsplit ▸ le_ofDigitChars fs _) hfits
  simp only [text, significand, exponent, List.append_assoc]
  cases fs with
  | nil =>
      obtain ⟨p, rfl⟩ := Option.ne_none_iff_exists'.mp (hreal.resolve_left fun h => h rfl)
      have hexponent := readExponent_power negative (ofDigits ds) 0 (hpower p rfl) hrest
      rw [Int.zero_add] at hexponent
      rw [fractionText, List.nil_append, readNumber_whole negative hwhole hwholeFits
        (powerText_isDigit (some p) hrest)]
      show (readExponent negative (ofDigits ds) 0
        ((if p < 0 then '-' else '+') :: (digits p.natAbs ++ rest))).map _ = _
      rw [hexponent, List.append_nil, Option.getD_some, List.length_nil, Int.natCast_zero,
        Int.sub_zero]
      cases real negative (ofDigits ds) p <;> rfl
  | cons f fs =>
      have hdigit : ∀ c ∈ ('.' :: (f :: fs ++ (powerText power ++ rest))).head?,
          isDigit c = false := by
        intro c hc
        obtain rfl : '.' = c := Option.some.inj hc
        rfl
      show readNumber (_ ++ (ds ++ '.' :: (f :: fs ++ (powerText power ++ rest)))) = _
      rw [readNumber_whole negative hwhole hwholeFits hdigit]
      show (readFraction negative (ofDigits ds) 0 _).map _ = _
      rw [readFraction_digits negative 0 hfraction (List.cons_ne_nil f fs) (hsplit ▸ hfits)
        (powerText_isDigit power hrest), readOptionalExponent_power negative _ _ hpower hrest,
        ← hsplit, show (0 : ℤ) - (f :: fs).length + power.getD 0 =
          power.getD 0 - (f :: fs).length by omega]
      cases real negative (ofDigits (ds ++ f :: fs)) _ <;> rfl

/-! ### Skipping -/

/-- Skips what may follow the digits of a number: a fraction and an exponent. -/
def skipTail : List Char → Except Fault (List Char)
  | '.' :: rest =>
    if rest.takeWhile isDigit = [] then .error .malformed
    else skipExponent (rest.dropWhile isDigit)
  | rest => skipExponent rest

theorem skipNumber_whole (negative : Bool) {ds : List Char} (h : IsWholePart ds) {rest : List Char}
    (hrest : ∀ c ∈ rest.head?, isDigit c = false) :
    skipNumber ((if negative then ['-'] else []) ++ (ds ++ rest)) = skipTail rest := by
  have htake := takeWhile_isDigit_append h.isDigit hrest
  have hdrop := dropWhile_isDigit_append h.isDigit hrest
  have hminus := h.append_ne_minus rest
  cases negative with
  | false =>
      simp only [Bool.false_eq_true, if_false, List.nil_append, skipNumber]
      rw [htake, hdrop]
      exact IsWholePart.match_eq _ _ (fun _ => skipTail rest) h
  | true =>
      simp only [if_true, List.cons_append, List.nil_append, skipNumber, htake, hdrop]
      exact IsWholePart.match_eq _ _ (fun _ => skipTail rest) h

theorem skipExponent_end {rest : List Char} (hrest : EndsNumber rest) :
    skipExponent rest = .ok rest := by
  unfold skipExponent
  split
  · rename_i c cs
    have hexponent : (decide (c = 'e') || decide (c = 'E')) ≠ true := by
      simpa using (hrest c rfl).2.2
    rw [if_neg hexponent]
  · rfl

theorem skipExponent_power (power : Option ℤ) {rest : List Char} (hrest : EndsNumber rest) :
    skipExponent (Numeral.powerText power ++ rest) = .ok rest := by
  cases power with
  | none => exact skipExponent_end hrest
  | some p =>
      have hdigit := fun c => isDigit_of_mem_digits (n := p.natAbs) (c := c)
      have htake := takeWhile_isDigit_append hdigit fun c hc => (hrest c hc).1
      have hdrop := dropWhile_isDigit_append hdigit fun c hc => (hrest c hc).1
      have hskip : (if (digits p.natAbs ++ rest).takeWhile isDigit = [] then
          Except.error Fault.malformed else .ok ((digits p.natAbs ++ rest).dropWhile isDigit)) =
            .ok rest := by
        rw [htake, hdrop, if_neg (digits_ne_nil _)]
      rw [Numeral.powerText]
      split_ifs
      · exact hskip
      · exact hskip

theorem Numeral.skipNumber_text (n : Numeral) (negative : Bool) {rest : List Char}
    (hrest : EndsNumber rest) :
    skipNumber ((if negative then ['-'] else []) ++ (n.text ++ rest)) = .ok rest := by
  obtain ⟨ds, fs, power, hwhole, hfraction, hreal, hfits, hpower⟩ := n
  simp only [text, List.append_assoc]
  cases fs with
  | nil =>
      obtain ⟨p, rfl⟩ := Option.ne_none_iff_exists'.mp (hreal.resolve_left fun h => h rfl)
      rw [fractionText, List.nil_append,
        skipNumber_whole negative hwhole (powerText_isDigit (some p) hrest)]
      exact skipExponent_power (some p) hrest
  | cons f fs =>
      have hdigit : ∀ c ∈ ('.' :: (f :: fs ++ (powerText power ++ rest))).head?,
          isDigit c = false := by
        intro c hc
        obtain rfl : '.' = c := Option.some.inj hc
        rfl
      have htail := powerText_isDigit power hrest
      show skipNumber (_ ++ (ds ++ '.' :: (f :: fs ++ (powerText power ++ rest)))) = _
      rw [skipNumber_whole negative hwhole hdigit, skipTail,
        takeWhile_isDigit_append hfraction htail, dropWhile_isDigit_append hfraction htail,
        if_neg (List.cons_ne_nil f fs), skipExponent_power power hrest]

/-! ### Whole numbers -/

theorem readTail_end (negative : Bool) {n : ℕ} {rest : List Char} (hrest : EndsNumber rest) :
    readTail negative n 0 rest =
      if negative = false then .ok (.whole n, rest)
      else if n = 0 ∨ maxSigned64 + 1 < n then .ok (.real (Decimal.nearest true n 1), rest)
      else .ok (.whole (-(n : ℤ)), rest) := by
  unfold readTail
  dsimp only
  split
  · exact absurd rfl (hrest '.' rfl).2.1
  · rename_i c cs _
    have hexponent : (decide (c = 'e') || decide (c = 'E')) ≠ true := by
      simpa using (hrest c rfl).2.2
    rw [if_neg hexponent]
    cases negative <;> rfl
  · cases negative <;> rfl

theorem readNumber_signedDigits {i : ℤ} (hlow : -((maxSigned64 + 1 : ℕ) : ℤ) ≤ i)
    (hhigh : i ≤ maxUnsigned64) {rest : List Char} (hrest : EndsNumber rest) :
    readNumber (signedDigits i ++ rest) = .ok (.whole i, rest) := by
  have hdigit : ∀ c ∈ rest.head?, isDigit c = false := fun c hc => (hrest c hc).1
  have hread (negative : Bool) := readNumber_whole negative (isWholePart_digits i.natAbs)
    (by rw [ofDigits_digits, maxUnsigned64]; rw [maxUnsigned64, maxSigned64] at *; omega) hdigit
  simp only [ofDigits_digits] at hread
  rw [signedDigits]
  split_ifs with hneg
  · refine (hread true).trans ?_
    rw [readTail_end true hrest, if_neg (by decide), if_neg (by omega)]
    congr
    omega
  · refine (hread false).trans ?_
    rw [readTail_end false hrest, if_pos rfl]
    congr
    omega

theorem skipNumber_signedDigits (i : ℤ) {rest : List Char} (hrest : EndsNumber rest) :
    skipNumber (signedDigits i ++ rest) = .ok rest := by
  have htail : skipTail rest = .ok rest := by
    unfold skipTail
    split
    · exact absurd rfl (hrest '.' rfl).2.1
    · exact skipExponent_end hrest
  have hskip (negative : Bool) := (skipNumber_whole negative (isWholePart_digits i.natAbs)
    fun c hc => (hrest c hc).1).trans htail
  rw [signedDigits]
  split_ifs
  · exact hskip true
  · exact hskip false

end RouteTraffic.Json
