import RouteTraffic.Proofs.TimestampTexts
import Mathlib.Data.List.Induction
import Mathlib.Data.List.TakeWhile
import Mathlib.Tactic.Ring

/-! # Fields of dates and clock times

What a text without an offset begins with, field by field: a number (`IsNumber`), a year (`IsYear`),
a date (`IsDate`) and a clock time (`IsClock`), each as the characters it is written with.  The
readers find exactly these, and what they leave is what stands behind the field
(`numberUpTo?_eq_some_iff`, `date?_eq_some_iff`), so a text begins with one date at most.

The strict form has the same fields with a fixed number of digits each, but its clock time is
followed by an offset (`parseStrict_isSeconds`). -/

namespace RouteTraffic

/-! ### White space and digits -/

namespace Text

theorem trimStart_split (cs : List Char) : cs.takeWhile isBlank ++ trimStart cs = cs :=
  List.takeWhile_append_dropWhile

theorem trimStart_trimStart (cs : List Char) : trimStart (trimStart cs) = trimStart cs :=
  trimStart_of_head? fun c hc => by
    have hnot := List.head?_dropWhile_not isBlank cs
    have hhead : (cs.dropWhile isBlank).head? = some c := hc
    rw [hhead] at hnot
    exact hnot

theorem trimStart_append {blanks cs : List Char} (hblanks : ∀ c ∈ blanks, isBlank c = true)
    (hcs : ∀ c ∈ cs.head?, isBlank c = false) : trimStart (blanks ++ cs) = cs := by
  rw [trimStart, List.dropWhile_append_of_pos hblanks, ← trimStart, trimStart_of_head? hcs]

theorem ofDigits_append (ds es : List Char) :
    ofDigits (ds ++ es) = ofDigits ds * 10 ^ es.length + ofDigits es := by
  induction es using List.reverseRecOn with
  | nil => simp [ofDigits]
  | append_singleton es c ih =>
      have hlast (cs : List Char) : ofDigits (cs ++ [c]) = 10 * ofDigits cs + digitValue c := by
        rw [ofDigits, List.foldl_append]
        rfl
      rw [← List.append_assoc, hlast, hlast, ih, List.length_append, List.length_singleton,
        Nat.pow_succ]
      ring

theorem ofDigits_take {ds : List Char} (h : ∀ c ∈ ds, isDigit c = true) (n : ℕ) :
    ofDigits (ds.take n) = ofDigits ds / 10 ^ (ds.length - n) := by
  have hsplit : ofDigits ds =
      10 ^ (ds.length - n) * ofDigits (ds.take n) + ofDigits (ds.drop n) := by
    rw [Nat.mul_comm, ← List.length_drop, ← ofDigits_append, List.take_append_drop]
  have hlt : ofDigits (ds.drop n) < 10 ^ (ds.length - n) :=
    List.length_drop ▸ ofDigits_lt fun c hc => h c (List.mem_of_mem_drop hc)
  rw [hsplit, Nat.mul_add_div (by positivity), Nat.div_eq_of_lt hlt, Nat.add_zero]

end Text

namespace Instant

open Text Calendar

/-! ### Numbers -/

/-- A text begins with a number of at most so many digits, which may have blanks before it.  The
number takes as many digits as it may. -/
def IsNumber (width : ℕ) (cs : List Char) (n : ℕ) (rest : List Char) : Prop :=
  ∃ blanks digits, cs = blanks ++ (digits ++ rest) ∧ (∀ c ∈ blanks, isBlank c = true) ∧
    (∀ c ∈ digits, isDigit c = true) ∧ digits ≠ [] ∧ digits.length ≤ width ∧
    (digits.length = width ∨ ∀ c ∈ rest.head?, isDigit c = false) ∧ ofDigits digits = n

theorem head?_append_isBlank {digits : List Char} (hdigits : ∀ c ∈ digits, isDigit c = true)
    (hsome : digits ≠ []) (rest : List Char) :
    ∀ c ∈ (digits ++ rest).head?, isBlank c = false := by
  obtain ⟨d, ds, rfl⟩ := List.exists_cons_of_ne_nil hsome
  intro c hc
  obtain rfl : d = c := Option.some.inj hc
  exact isBlank_of_isDigit (hdigits d List.mem_cons_self)

theorem head?_of_takeWhile_append {cs rest : List Char} (h : cs.takeWhile isDigit ++ rest = cs) :
    ∀ c ∈ rest.head?, isDigit c = false := by
  have hrest : rest = cs.dropWhile isDigit :=
    List.append_cancel_left (h.trans List.takeWhile_append_dropWhile.symm)
  intro c hc
  have hnot := List.head?_dropWhile_not isDigit cs
  rw [← hrest, hc] at hnot
  exact hnot

theorem numberUpTo?_eq_some_iff {width n : ℕ} {cs rest : List Char} :
    numberUpTo? width cs = some (n, rest) ↔ IsNumber width cs n rest := by
  unfold numberUpTo?
  dsimp only
  constructor
  · intro h
    split_ifs at h with hnone
    obtain ⟨hn, hrest⟩ := Prod.mk.inj (Option.some.inj h)
    set run := (trimStart cs).takeWhile isDigit with hrun
    have hprefix : run.take width <+: trimStart cs :=
      (List.take_prefix _ _).trans (List.takeWhile_prefix _)
    have hsplit : run.take width ++ rest = trimStart cs := by
      rw [← hrest, List.prefix_iff_eq_append.mp hprefix]
    refine ⟨cs.takeWhile isBlank, run.take width, ?_, fun c hc => List.mem_takeWhile_imp hc,
      fun c hc => ?_, hnone, List.length_take_le _ _, ?_, hn⟩
    · rw [hsplit, trimStart_split]
    · exact List.mem_takeWhile_imp (List.mem_of_mem_take hc)
    · rw [List.length_take]
      rcases Nat.lt_or_ge run.length width with hshort | hlong
      · rw [List.take_of_length_le hshort.le] at hsplit
        exact Or.inr (head?_of_takeWhile_append hsplit)
      · exact Or.inl (Nat.min_eq_left hlong)
  · rintro ⟨blanks, digits, rfl, hblanks, hdigits, hsome, hwidth, hend, rfl⟩
    have htake : ((digits ++ rest).takeWhile isDigit).take width = digits := by
      rcases hend with hfull | hrest
      · rw [List.takeWhile_append_of_pos hdigits, List.take_left' hfull]
      · rw [takeWhile_isDigit_append hdigits hrest, List.take_of_length_le hwidth]
    rw [trimStart_append hblanks (head?_append_isBlank hdigits hsome rest), htake, if_neg hsome,
      List.drop_left]

theorem isNumber_trimStart {width n : ℕ} {cs rest : List Char} :
    IsNumber width (trimStart cs) n rest ↔ IsNumber width cs n rest := by
  rw [← numberUpTo?_eq_some_iff, ← numberUpTo?_eq_some_iff, numberUpTo?, trimStart_trimStart]
  rfl

theorem IsNumber.unique {width n n' : ℕ} {cs rest rest' : List Char}
    (h : IsNumber width cs n rest) (h' : IsNumber width cs n' rest') : n = n' ∧ rest = rest' := by
  have hread := numberUpTo?_eq_some_iff.mpr h
  rw [numberUpTo?_eq_some_iff.mpr h'] at hread
  obtain ⟨rfl, rfl⟩ := Prod.mk.inj (Option.some.inj hread)
  exact ⟨rfl, rfl⟩

theorem IsNumber.head {width n : ℕ} {c : Char} {cs rest : List Char}
    (h : IsNumber width (c :: cs) n rest) : isBlank c = true ∨ isDigit c = true := by
  obtain ⟨blanks, digits, hcs, hblanks, hdigits, hsome, -⟩ := h
  cases blanks with
  | nil =>
      obtain ⟨d, ds, rfl⟩ := List.exists_cons_of_ne_nil hsome
      obtain rfl : c = d := (List.cons.inj hcs).1
      exact Or.inr (hdigits c List.mem_cons_self)
  | cons b bs =>
      obtain rfl : c = b := (List.cons.inj hcs).1
      exact Or.inl (hblanks c List.mem_cons_self)

theorem IsNumber.not_letter {width n : ℕ} {c : Char} {cs rest : List Char}
    (hblank : isBlank c = false) (hdigit : isDigit c = false) :
    ¬ IsNumber width (c :: cs) n rest := by
  intro h
  rcases h.head with hc | hc
  · rw [hc] at hblank
    cases hblank
  · rw [hc] at hdigit
    cases hdigit

/-! ### Years -/

/-- A text begins with a year: a number of at most four digits, or a sign and any number of
digits. -/
def IsYear (cs : List Char) (year : ℤ) (rest : List Char) : Prop :=
  (∃ n : ℕ, IsNumber 4 cs n rest ∧ year = n) ∨
    ∃ blanks sign digits, cs = blanks ++ sign :: (digits ++ rest) ∧
      (∀ c ∈ blanks, isBlank c = true) ∧ (∀ c ∈ digits, isDigit c = true) ∧ digits ≠ [] ∧
      (∀ c ∈ rest.head?, isDigit c = false) ∧
      (sign = '+' ∧ year = ofDigits digits ∨ sign = '-' ∧ year = -(ofDigits digits : ℤ))

theorem signed?_eq_some_iff {cs rest : List Char} {n : ℕ} :
    year?.signed? cs = some (n, rest) ↔ ∃ digits, cs = digits ++ rest ∧
      (∀ c ∈ digits, isDigit c = true) ∧ digits ≠ [] ∧ (∀ c ∈ rest.head?, isDigit c = false) ∧
      ofDigits digits = n := by
  unfold year?.signed?
  dsimp only
  constructor
  · intro h
    split_ifs at h with hnone
    obtain ⟨hn, hrest⟩ := Prod.mk.inj (Option.some.inj h)
    have hsplit : cs.takeWhile isDigit ++ rest = cs := by
      rw [← hrest, List.prefix_iff_eq_append.mp (List.takeWhile_prefix _)]
    exact ⟨cs.takeWhile isDigit, hsplit.symm, fun c hc => List.mem_takeWhile_imp hc, hnone,
      head?_of_takeWhile_append hsplit, hn⟩
  · rintro ⟨digits, rfl, hdigits, hsome, hrest, rfl⟩
    rw [takeWhile_isDigit_append hdigits hrest, if_neg hsome, List.drop_left]

theorem year?_eq_some_iff {cs rest : List Char} {year : ℤ} :
    year? cs = some (year, rest) ↔ IsYear cs year rest := by
  have hsplit := trimStart_split cs
  have hbefore : ∀ c ∈ cs.takeWhile isBlank, isBlank c = true := fun c hc =>
    List.mem_takeWhile_imp hc
  unfold year?
  dsimp only
  constructor
  · intro h
    split at h
    · rename_i tail htail
      obtain ⟨⟨n, r⟩, hsigned, hyear⟩ := Option.map_eq_some_iff.mp h
      obtain ⟨rfl, rfl⟩ := Prod.mk.inj hyear
      obtain ⟨digits, rfl, hdigits, hsome, hend, rfl⟩ := signed?_eq_some_iff.mp hsigned
      exact Or.inr ⟨_, '-', digits, by rw [← htail, hsplit], hbefore, hdigits, hsome, hend,
        Or.inr ⟨rfl, rfl⟩⟩
    · rename_i tail htail
      obtain ⟨⟨n, r⟩, hsigned, hyear⟩ := Option.map_eq_some_iff.mp h
      obtain ⟨rfl, rfl⟩ := Prod.mk.inj hyear
      obtain ⟨digits, rfl, hdigits, hsome, hend, rfl⟩ := signed?_eq_some_iff.mp hsigned
      exact Or.inr ⟨_, '+', digits, by rw [← htail, hsplit], hbefore, hdigits, hsome, hend,
        Or.inl ⟨rfl, rfl⟩⟩
    · obtain ⟨⟨n, r⟩, hnumber, hyear⟩ := Option.map_eq_some_iff.mp h
      obtain ⟨rfl, rfl⟩ := Prod.mk.inj hyear
      exact Or.inl ⟨n, isNumber_trimStart.mp (numberUpTo?_eq_some_iff.mp hnumber), rfl⟩
  · rintro (⟨n, hnumber, rfl⟩ | ⟨blanks, sign, digits, rfl, hblanks, hdigits, hsome, hend, hsign⟩)
    · have htrimmed := isNumber_trimStart.mpr hnumber
      split
      · rename_i tail htail
        exact absurd (htail ▸ htrimmed) (IsNumber.not_letter rfl rfl)
      · rename_i tail htail
        exact absurd (htail ▸ htrimmed) (IsNumber.not_letter rfl rfl)
      · rw [numberUpTo?_eq_some_iff.mpr htrimmed]
        rfl
    · have hsigned := signed?_eq_some_iff.mpr ⟨digits, rfl, hdigits, hsome, hend, rfl⟩
      rcases hsign with ⟨rfl, rfl⟩ | ⟨rfl, rfl⟩
      · rw [trimStart_append hblanks (by simp [show isBlank '+' = false from rfl])]
        simp only [hsigned, Option.map_some]
      · rw [trimStart_append hblanks (by simp [show isBlank '-' = false from rfl])]
        simp only [hsigned, Option.map_some]

/-! ### Dates -/

theorem char?_eq_some_iff {c : Char} {cs rest : List Char} :
    char? c cs = some rest ↔ cs = c :: rest := by
  cases cs with
  | nil => simp [char?]
  | cons d ds =>
      simp only [char?, List.cons.injEq]
      split_ifs with h <;> simp [h]

/-- A text begins with a date, its parts divided by dashes. -/
def IsDate (cs : List Char) (date : Date) (rest : List Char) : Prop :=
  ∃ cs₁ cs₂, IsYear cs date.year ('-' :: cs₁) ∧ IsNumber 2 cs₁ date.month ('-' :: cs₂) ∧
    IsNumber 2 cs₂ date.day rest

theorem date?_eq_some_iff {cs rest : List Char} {date : Date} :
    date? id cs = some (date, rest) ↔ IsDate cs date rest := by
  unfold date?
  simp only [Option.bind_eq_bind, Option.bind_eq_some_iff, Prod.exists, id]
  constructor
  · rintro ⟨year, cs₁, hyear, cs₂, hdash, month, cs₃, hmonth, cs₄, hdash', day, cs₅, hday, h⟩
    obtain ⟨rfl, rfl⟩ := Prod.mk.inj (Option.some.inj h)
    obtain rfl := char?_eq_some_iff.mp hdash
    obtain rfl := char?_eq_some_iff.mp hdash'
    exact ⟨cs₂, cs₄, year?_eq_some_iff.mp hyear, numberUpTo?_eq_some_iff.mp hmonth,
      numberUpTo?_eq_some_iff.mp hday⟩
  · rintro ⟨cs₁, cs₂, hyear, hmonth, hday⟩
    exact ⟨date.year, _, year?_eq_some_iff.mpr hyear, cs₁, char?_eq_some_iff.mpr rfl, date.month, _,
      numberUpTo?_eq_some_iff.mpr hmonth, cs₂, char?_eq_some_iff.mpr rfl, date.day, rest,
      numberUpTo?_eq_some_iff.mpr hday, rfl⟩

theorem IsDate.unique {cs rest rest' : List Char} {date date' : Date} (h : IsDate cs date rest)
    (h' : IsDate cs date' rest') : date = date' ∧ rest = rest' := by
  have hread := date?_eq_some_iff.mpr h
  rw [date?_eq_some_iff.mpr h'] at hread
  obtain ⟨rfl, rfl⟩ := Prod.mk.inj (Option.some.inj hread)
  exact ⟨rfl, rfl⟩

/-! ### Fractions -/

/-- The text is a point and decimals, or empty: a fraction of a second, in nanoseconds rounded
down. -/
def IsFraction (cs : List Char) (nanos : ℕ) : Prop :=
  cs = [] ∧ nanos = 0 ∨
    ∃ digits, cs = '.' :: digits ∧ digits ≠ [] ∧ (∀ c ∈ digits, isDigit c = true) ∧
      nanos = ofDigits digits * 10 ^ 9 / 10 ^ digits.length

/-- Nine decimals are read, and a fraction with fewer has zeros behind them. -/
theorem nanos_eq {digits : List Char} (h : ∀ c ∈ digits, isDigit c = true) :
    ofDigits (digits.take 9) * Decimal.tenPow (9 - (digits.take 9).length) =
      ofDigits digits * 10 ^ 9 / 10 ^ digits.length := by
  rw [Decimal.tenPow_eq]
  rcases Nat.le_total digits.length 9 with hshort | hlong
  · have hpow : 10 ^ 9 = 10 ^ (9 - digits.length) * 10 ^ digits.length := by
      rw [← Nat.pow_add, Nat.sub_add_cancel hshort]
    rw [List.take_of_length_le hshort, hpow, ← Nat.mul_assoc, Nat.mul_div_cancel _ (by positivity)]
  · have hpow : 10 ^ digits.length = 10 ^ (digits.length - 9) * 10 ^ 9 := by
      rw [← Nat.pow_add, Nat.sub_add_cancel hlong]
    rw [List.length_take_of_le hlong, Nat.sub_self, Nat.pow_zero, Nat.mul_one, ofDigits_take h,
      hpow, Nat.mul_div_mul_right _ _ (by positivity)]

theorem fraction_eq_ok_iff {cs : List Char} {nanos : ℕ} :
    fraction cs = .ok (nanos, []) ↔ cs ≠ [] ∧ (∀ c ∈ cs, isDigit c = true) ∧
      nanos = ofDigits cs * 10 ^ 9 / 10 ^ cs.length := by
  cases cs with
  | nil => exact iff_of_false nofun fun h => h.1 rfl
  | cons c cs =>
      rw [fraction]
      constructor
      · intro h
        split_ifs at h
        obtain ⟨hnanos, hrest⟩ := Prod.mk.inj (Except.ok.inj h)
        have hdigits := List.dropWhile_eq_nil_iff.mp hrest
        rw [List.takeWhile_eq_self_iff.mpr hdigits, nanos_eq hdigits] at hnanos
        exact ⟨List.cons_ne_nil c cs, hdigits, hnanos.symm⟩
      · rintro ⟨-, hdigits, rfl⟩
        rw [if_pos (hdigits c List.mem_cons_self), List.takeWhile_eq_self_iff.mpr hdigits,
          List.dropWhile_eq_nil_iff.mpr hdigits]
        dsimp only
        rw [nanos_eq hdigits]

theorem optionalFraction_eq_ok_iff {cs : List Char} {nanos : ℕ} :
    optionalFraction cs = .ok (nanos, []) ↔ IsFraction cs nanos := by
  unfold optionalFraction IsFraction
  split
  · rename_i digits
    simp [fraction_eq_ok_iff]
  · rename_i hpoint
    constructor
    · intro h
      obtain ⟨rfl, rfl⟩ := Prod.mk.inj (Except.ok.inj h)
      exact Or.inl ⟨rfl, rfl⟩
    · rintro (⟨rfl, rfl⟩ | ⟨digits, rfl, -⟩)
      · rfl
      · exact absurd rfl (hpoint digits)

theorem fraction?_eq_some_iff {cs rest : List Char} {nanos : ℕ} :
    fraction? cs = some (nanos, rest) ↔ optionalFraction cs = .ok (nanos, rest) := by
  unfold fraction?
  cases optionalFraction cs <;> simp [Except.toOption]

/-! ### Clock times -/

/-- A text begins with an hour, a minute and a second, divided by colons. -/
def IsSeconds (cs : List Char) (hour minute second : ℕ) (rest : List Char) : Prop :=
  ∃ cs₁ cs₂, IsNumber 2 cs hour (':' :: cs₁) ∧ IsNumber 2 cs₁ minute (':' :: cs₂) ∧
    IsNumber 2 cs₂ second rest

/-- The text is a clock time to the second, with a fraction or without. -/
def IsClock (cs : List Char) (hour minute second nanos : ℕ) : Prop :=
  ∃ rest, IsSeconds cs hour minute second rest ∧ IsFraction rest nanos

section
variable {cs rest : List Char} {hour minute second : ℕ}

theorem IsSeconds.not_letter {c : Char} (hblank : isBlank c = false) (hdigit : isDigit c = false) :
    ¬ IsSeconds (c :: cs) hour minute second rest := by
  rintro ⟨cs₁, cs₂, hhour, -⟩
  exact hhour.not_letter hblank hdigit

theorem isSeconds_trimStart :
    IsSeconds (trimStart cs) hour minute second rest ↔ IsSeconds cs hour minute second rest := by
  simp only [IsSeconds, isNumber_trimStart]

theorem IsSeconds.unique (h : IsSeconds cs hour minute second rest) {hour' minute' second' : ℕ}
    {rest' : List Char} (h' : IsSeconds cs hour' minute' second' rest') : rest = rest' := by
  obtain ⟨cs₁, cs₂, hhour, hminute, hsecond⟩ := h
  obtain ⟨cs₁', cs₂', hhour', hminute', hsecond'⟩ := h'
  obtain rfl : cs₁ = cs₁' := (List.cons.inj (hhour.unique hhour').2).2
  obtain rfl : cs₂ = cs₂' := (List.cons.inj (hminute.unique hminute').2).2
  exact (hsecond.unique hsecond').2

end

/-! ### The strict form -/

theorem exactDigits_eq_ok {width v n : ℕ} {cs rest : List Char}
    (h : exactDigits width cs v = .ok (n, rest)) : ∃ digits, cs = digits ++ rest ∧
      (∀ c ∈ digits, isDigit c = true) ∧ digits.length = width ∧
      n = Nat.ofDigitChars 10 digits v := by
  induction width generalizing cs v with
  | zero =>
      obtain ⟨rfl, rfl⟩ := Prod.mk.inj (Except.ok.inj h)
      exact ⟨[], rfl, nofun, rfl, rfl⟩
  | succ width ih =>
      cases cs with
      | nil => cases h
      | cons c cs =>
          rw [exactDigits] at h
          split_ifs at h with hc
          obtain ⟨digits, rfl, hdigits, rfl, rfl⟩ := ih h
          exact ⟨c :: digits, rfl, List.forall_mem_cons.mpr ⟨hc, hdigits⟩, rfl, rfl⟩

theorem isNumber_of_exactDigits {width n : ℕ} (hwidth : 0 < width) {cs rest : List Char}
    (h : exactDigits width cs 0 = .ok (n, rest)) : IsNumber width cs n rest := by
  obtain ⟨digits, rfl, hdigits, rfl, rfl⟩ := exactDigits_eq_ok h
  exact ⟨[], digits, rfl, nofun, hdigits, List.length_pos_iff.mp hwidth, le_rfl, Or.inl rfl,
    ofDigits_eq_ofDigitChars digits⟩

theorem oneOf_eq_ok {ok : Char → Bool} {cs rest : List Char} (h : oneOf ok cs = .ok rest) :
    ∃ c, ok c = true ∧ cs = c :: rest := by
  cases cs with
  | nil => cases h
  | cons c cs =>
      rw [oneOf] at h
      split_ifs at h with hc
      exact ⟨c, hc, by rw [Except.ok.inj h]⟩

/-- The clock time of the strict form does not end the text: an offset stands behind it. -/
theorem parseStrict_isSeconds {cs : List Char} {t : Instant} (h : parseStrict cs = .ok t) :
    ∃ date separator rest hour minute second rest',
      (separator = 'T' ∨ separator = 't' ∨ separator = ' ') ∧
        IsDate cs date (separator :: rest) ∧ IsSeconds rest hour minute second rest' ∧
        ∀ nanos, ¬ IsFraction rest' nanos := by
  unfold parseStrict at h
  dsimp only at h
  split_ifs at h with hlength
  · cases h
  obtain ⟨⟨year, cs₁⟩, hyear, h⟩ := bind_eq_ok h
  obtain ⟨cs₂, hdash, h⟩ := bind_eq_ok h
  obtain ⟨⟨month, cs₃⟩, hmonth, h⟩ := bind_eq_ok h
  obtain ⟨cs₄, hdash', h⟩ := bind_eq_ok h
  obtain ⟨⟨day, cs₅⟩, hday, h⟩ := bind_eq_ok h
  dsimp only at h
  split_ifs at h with hdate
  · cases h
  obtain ⟨cs₆, hseparator, h⟩ := bind_eq_ok h
  obtain ⟨⟨hour, cs₇⟩, hhour, h⟩ := bind_eq_ok h
  obtain ⟨cs₈, hcolon, h⟩ := bind_eq_ok h
  obtain ⟨⟨minute, cs₉⟩, hminute, h⟩ := bind_eq_ok h
  obtain ⟨cs₁₀, hcolon', h⟩ := bind_eq_ok h
  obtain ⟨⟨second, cs₁₁⟩, hsecond, h⟩ := bind_eq_ok h
  obtain ⟨⟨nanos, cs₁₂⟩, hfraction, h⟩ := bind_eq_ok h
  obtain ⟨time, -, h⟩ := bind_eq_ok h
  obtain ⟨⟨east, cs₁₃⟩, hoffset, -⟩ := bind_eq_ok h
  have hone {c : Char} {cs rest : List Char} (h : oneOf (· == c) cs = .ok rest) :
      cs = c :: rest := by
    obtain ⟨d, hd, rfl⟩ := oneOf_eq_ok h
    rw [eq_of_beq hd]
  obtain rfl := hone hdash
  obtain rfl := hone hdash'
  obtain rfl := hone hcolon
  obtain rfl := hone hcolon'
  obtain ⟨separator, hallowed, rfl⟩ := oneOf_eq_ok hseparator
  refine ⟨⟨year, month, day⟩, separator, cs₆, hour, minute, second, cs₁₁, ?_,
    ⟨cs₂, cs₄, Or.inl ⟨year, isNumber_of_exactDigits (by decide) hyear, rfl⟩,
      isNumber_of_exactDigits (by decide) hmonth, isNumber_of_exactDigits (by decide) hday⟩,
    ⟨cs₈, cs₁₀, isNumber_of_exactDigits (by decide) hhour,
      isNumber_of_exactDigits (by decide) hminute, isNumber_of_exactDigits (by decide) hsecond⟩,
    fun nanos' hend => ?_⟩
  · simpa [or_assoc] using hallowed
  · obtain ⟨rfl, rfl⟩ : nanos = nanos' ∧ cs₁₂ = [] := by
      rw [optionalFraction_eq_ok_iff.mpr hend] at hfraction
      obtain ⟨rfl, rfl⟩ := Prod.mk.inj (Except.ok.inj hfraction)
      exact ⟨rfl, rfl⟩
    cases hoffset

end Instant
end RouteTraffic
