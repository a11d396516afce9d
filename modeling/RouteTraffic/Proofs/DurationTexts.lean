import RouteTraffic.Duration
import RouteTraffic.Proofs.NumeralTexts
import Mathlib.Data.List.DropRight

/-! # The texts of durations

A text is a duration exactly if it is a numeral, white space or none and a unit, with white space
around them (`Reading`).  There is one such reading of it or there is none, and the duration is the
number that was read times the nanoseconds of the unit, as a double, cut off (`parse_reads`).

The units overlap, five of them ending in `s` and two beginning with `m`, and the first one that
the text ends in is taken.  Still no text is cut in a wrong place.  What is read as a finite number
ends in a digit or in a point, and neither these nor white space are letters of units
(`stopsBefore_append`), so the unit is all the letters at the end; and no unit that is tried
earlier is the end of another one (`exists_earlier`). -/

namespace RouteTraffic

namespace Text

/-! ### White space around a text -/

theorem trimEnd_eq (cs : List Char) : trimEnd cs = cs.rdropWhile isBlank := rfl

theorem trimStart_of_trim {cs front back : List Char} (h : trim cs = front ++ back) :
    trimStart front = front := by
  refine trimStart_of_head? fun c hc => ?_
  obtain ⟨tail, htail⟩ := List.rdropWhile_prefix isBlank (trimStart cs)
  have hhead : (cs.dropWhile isBlank).head? = some c := by
    rw [← trimStart, ← htail, ← trimEnd_eq, ← trim, h]
    exact List.mem_head?_append_of_mem_head? (List.mem_head?_append_of_mem_head? hc)
  have hnot := List.head?_dropWhile_not isBlank cs
  rw [hhead] at hnot
  exact hnot

theorem trimEnd_split (cs : List Char) : trimEnd cs ++ cs.rtakeWhile isBlank = cs :=
  List.rdropWhile_append_rtakeWhile

end Text

namespace Duration

open Text Decimal

/-! ### Units -/

/-- The nanoseconds of a unit as a natural number. -/
def TimeUnit.scale : TimeUnit → ℕ
  | .nanosecond => 1
  | .microsecond => 10 ^ 3
  | .microsecondAscii => 10 ^ 3
  | .millisecond => 10 ^ 6
  | .second => 10 ^ 9
  | .minute => 60 * 10 ^ 9
  | .hour => 3600 * 10 ^ 9

theorem TimeUnit.nanos_eq (u : TimeUnit) : u.nanos = Decimal.ofNat u.scale := by cases u <;> rfl

theorem TimeUnit.scale_bounds (u : TimeUnit) : 1 ≤ u.scale ∧ u.scale ≤ 3600 * 10 ^ 9 := by
  cases u <;> decide

theorem TimeUnit.value_nanos (u : TimeUnit) :
    u.nanos.isFinite = true ∧ value u.nanos = u.scale := by
  have hrounded := rounded_of_onGrid (onGrid_natCast (u.scale_bounds.2.trans (by decide)))
  have hlt : rounded u.scale < 2 ^ (1024 : ℤ) := by
    have hscale : (u.scale : ℚ) ≤ 2 ^ (42 : ℤ) := by exact_mod_cast u.scale_bounds.2.trans (by decide)
    rw [hrounded]
    exact hscale.trans_lt (zpow_lt_zpow_right₀ (by norm_num) (by norm_num))
  rw [nanos_eq, ← hrounded]
  exact value_ofNat hlt

theorem TimeUnit.suffix_ne_nil (u : TimeUnit) : u.suffix.toList ≠ [] := by cases u <;> decide

/-- The letters that units are written with. -/
def isUnitLetter (c : Char) : Bool := TimeUnit.all.any fun u => c ∈ u.suffix.toList

theorem TimeUnit.mem_all (u : TimeUnit) : u ∈ all := by cases u <;> decide

theorem isUnitLetter_of_mem {u : TimeUnit} {c : Char} (h : c ∈ u.suffix.toList) :
    isUnitLetter c = true :=
  List.any_eq_true.mpr ⟨u, u.mem_all, decide_eq_true h⟩

theorem not_of_isUnitLetter {c : Char} (h : isUnitLetter c = true) :
    isDigit c = false ∧ c ≠ '.' ∧ isBlank c = false := by
  obtain ⟨u, -, hc⟩ := List.any_eq_true.mp h
  have hletters : u.suffix.toList.all (fun c => !isDigit c && c != '.' && !isBlank c) = true := by
    cases u <;> rfl
  have hletter := List.all_eq_true.mp hletters c (of_decide_eq_true hc)
  simpa only [Bool.and_eq_true, Bool.not_eq_true', bne_iff_ne, ne_eq, and_assoc] using hletter

/-- No unit that is tried earlier is the end of one that is tried later. -/
theorem exists_earlier (u : TimeUnit) : ∃ earlier later, TimeUnit.all = earlier ++ u :: later ∧
    ∀ v ∈ earlier, ¬ v.suffix.toList <:+ u.suffix.toList := by
  refine ⟨TimeUnit.all.takeWhile (· ≠ u), (TimeUnit.all.dropWhile (· ≠ u)).tail, ?_, ?_⟩ <;>
    cases u <;> decide

theorem stripUnit?_eq_some_iff {u : TimeUnit} {cs front : List Char} :
    stripUnit? u cs = some front ↔ cs = front ++ u.suffix.toList := by
  constructor
  · intro h
    simp only [stripUnit?] at h
    split at h
    case isTrue hsuffix =>
      rw [← Option.some.inj h]
      exact (List.suffix_iff_eq_append.mp (List.isSuffixOf_iff_suffix.mp hsuffix)).symm
    case isFalse => cases h
  · rintro rfl
    simp only [stripUnit?]
    rw [if_pos (List.isSuffixOf_iff_suffix.mpr (List.suffix_append _ _)), List.length_append,
      Nat.add_sub_cancel, List.take_left]

theorem splitUnit?_eq_some {cs front : List Char} {u : TimeUnit}
    (h : splitUnit? cs = some (u, front)) : cs = front ++ u.suffix.toList := by
  obtain ⟨v, -, hv⟩ := List.exists_of_findSome?_eq_some h
  obtain ⟨rest, hrest, heq⟩ := Option.map_eq_some_iff.mp hv
  obtain ⟨rfl, rfl⟩ := Prod.mk.inj heq
  exact stripUnit?_eq_some_iff.mp hrest

/-! ### Where the unit begins -/

/-- No letter of a unit stands at the end. -/
def StopsBefore (front : List Char) : Prop := ∀ c ∈ front.getLast?, isUnitLetter c = false

theorem stopsBefore_append {numeral blanks : List Char} (h : EndsNumeral numeral)
    (hblanks : ∀ c ∈ blanks, isBlank c = true) : StopsBefore (numeral ++ blanks) := by
  intro c hc
  by_contra hletter
  obtain ⟨hdigit, hpoint, hblank⟩ := not_of_isUnitLetter (Bool.eq_true_of_not_eq_false hletter)
  rw [Option.mem_def, List.getLast?_append, Option.or_eq_some_iff] at hc
  rcases hc with hlast | ⟨-, hlast⟩
  · rw [hblanks c (List.mem_of_getLast? hlast)] at hblank
    cases hblank
  · obtain ⟨d, hd, hend⟩ := h
    obtain rfl : d = c := Option.some.inj (hd.symm.trans hlast)
    rcases hend with hend | hend
    · rw [hend] at hdigit
      cases hdigit
    · exact hpoint hend

/-- The unit is all the letters at the end, so a suffix of the text that is a unit is a suffix of
this unit. -/
theorem StopsBefore.suffix_of_suffix {front : List Char} (h : StopsBefore front) {u v : TimeUnit}
    (hv : v.suffix.toList <:+ front ++ u.suffix.toList) : v.suffix.toList <:+ u.suffix.toList := by
  rcases List.suffix_or_suffix_of_suffix hv (List.suffix_append front _) with hsuffix | ⟨mid, hmid⟩
  · exact hsuffix
  · obtain ⟨rest, hrest⟩ := hv
    rw [← hmid, ← List.append_assoc, List.append_cancel_right_eq] at hrest
    cases hlast : mid.getLast? with
    | none =>
        rw [List.getLast?_eq_none_iff.mp hlast, List.nil_append] at hmid
        exact ⟨[], hmid.symm⟩
    | some c =>
        -- a letter would stand before the unit
        have hletter : isUnitLetter c = true := isUnitLetter_of_mem (u := v) <| by
          rw [← hmid]
          exact List.mem_append_left _ (List.mem_of_getLast? hlast)
        rw [h c (hrest ▸ List.mem_getLast?_append_of_mem_getLast? hlast)] at hletter
        cases hletter

theorem splitUnit?_append {front : List Char} (h : StopsBefore front) (u : TimeUnit) :
    splitUnit? (front ++ u.suffix.toList) = some (u, front) := by
  obtain ⟨earlier, later, hall, hearlier⟩ := exists_earlier u
  rw [splitUnit?, hall, List.findSome?_eq_some_iff]
  refine ⟨earlier, u, later, rfl, ?_, fun v hv => ?_⟩
  · rw [stripUnit?_eq_some_iff.mpr rfl, Option.map_some]
  · rw [Option.map_eq_none_iff, Option.eq_none_iff_forall_ne_some]
    intro rest hrest
    exact hearlier v hv (h.suffix_of_suffix ⟨rest, (stripUnit?_eq_some_iff.mp hrest).symm⟩)

/-! ### Counts -/

theorem isCount_iff {x : Float} : isCount x = true ↔ x.isFinite = true ∧ 0 ≤ value x := by
  rw [isFinite_iff_magnitude, isCount]
  cases hx : magnitude x with
  | infinite => exact iff_of_false nofun nofun
  | notANumber => exact iff_of_false nofun nofun
  | finite d =>
      have hnum : (0 : ℚ) ≤ d.mantissa * 2 ^ d.exponent :=
        mul_nonneg (Nat.cast_nonneg _) (two_zpow_pos _).le
      rw [and_iff_right ⟨d, rfl⟩, value_of_magnitude hx, binary_value]
      cases negative x with
      | false => exact iff_of_true rfl hnum
      | true =>
          show (!(d.mantissa != 0)) = true ↔ 0 ≤ -((d.mantissa : ℚ) * 2 ^ d.exponent)
          rcases Nat.eq_zero_or_pos d.mantissa with hzero | hpos
          · rw [hzero, Nat.cast_zero, zero_mul, neg_zero]
            exact iff_of_true rfl le_rfl
          · have hvalue : (0 : ℚ) < d.mantissa * 2 ^ d.exponent :=
              mul_pos (Nat.cast_pos.mpr hpos) (two_zpow_pos _)
            refine iff_of_false ?_ (not_le.mpr (neg_lt_zero.mpr hvalue))
            simp [hpos.ne']

theorem wholePart_eq {x : Float} (h : x.isFinite = true) (hx : 0 ≤ value x) :
    wholePart x = min ⌊value x⌋₊ maxNanos := by
  obtain ⟨d, hd⟩ := isFinite_iff_magnitude.mp h
  have hvalue : value x = d.num / d.den := by
    rw [← abs_of_nonneg hx, value_of_magnitude hd, abs_withSign]
    exact abs_of_nonneg (div_nonneg (Nat.cast_nonneg _) (Nat.cast_nonneg _))
  rw [wholePart, hd, hvalue, Nat.floor_div_eq_div]

/-! ### Readings -/

/-- A reading of a text as a numeral, white space or none, and a unit.  The numeral is read as a
finite number that is not below zero. -/
structure Reading (text : String) where
  numeral : List Char
  blanks : List Char
  unit : TimeUnit
  count : Float
  text_eq : trim text.toList = numeral ++ blanks ++ unit.suffix.toList
  isBlanks : ∀ c ∈ blanks, isBlank c = true
  reads : float? numeral = .ok count
  isFinite : count.isFinite = true
  nonneg : 0 ≤ value count

namespace Reading

/-- The count times the nanoseconds of the unit, as a double, cut off. -/
def nanos {text : String} (r : Reading text) : ℕ :=
  let product := r.count * r.unit.nanos
  if product.isFinite then min ⌊value product⌋₊ (2 ^ 64 - 1) else 2 ^ 64 - 1

variable {text : String} (r : Reading text)

theorem endsNumeral : EndsNumeral r.numeral := float?_endsNumeral r.reads r.isFinite

theorem splitUnit?_eq : splitUnit? (trim text.toList) = some (r.unit, r.numeral ++ r.blanks) := by
  rw [r.text_eq]
  exact splitUnit?_append (stopsBefore_append r.endsNumeral r.isBlanks) r.unit

theorem trim_eq : trim (r.numeral ++ r.blanks) = r.numeral := by
  rw [trim, trimStart_of_trim r.text_eq, trimEnd_append ?_ r.isBlanks]
  intro c hc
  obtain ⟨d, hd, hend⟩ := r.endsNumeral
  obtain rfl : d = c := Option.some.inj (hd.symm.trans hc)
  rcases hend with hdigit | rfl
  · exact isBlank_of_isDigit hdigit
  · rfl

theorem wholePart_eq : wholePart (r.count * r.unit.nanos) = r.nanos := by
  obtain ⟨hunit, hscale⟩ := r.unit.value_nanos
  rw [nanos]
  split_ifs with hfinite
  · have hlt := abs_rounded_mul_lt r.isFinite hunit hfinite
    have hvalue := (value_mul r.isFinite hunit hlt).2
    refine Duration.wholePart_eq hfinite ?_
    rw [hvalue, hscale]
    exact rounded_nonneg (mul_nonneg r.nonneg (Nat.cast_nonneg _))
  · obtain ⟨s, hs⟩ := unpack_mul_infinite r.isFinite hunit (Bool.eq_false_iff.mpr hfinite)
    rw [wholePart, magnitude_eq, hs]
    rfl

theorem parse_eq : parse text = .ok r.nanos := by
  simp only [parse, r.splitUnit?_eq, r.trim_eq, r.reads,
    isCount_iff.mpr ⟨r.isFinite, r.nonneg⟩, r.wholePart_eq, if_true]

theorem unique (r' : Reading text) : r = r' := by
  have hsplit := Option.some.inj (r.splitUnit?_eq.symm.trans r'.splitUnit?_eq)
  obtain ⟨hunit, hfront⟩ := Prod.mk.inj hsplit
  have hnumeral : r.numeral = r'.numeral := by rw [← r.trim_eq, hfront, r'.trim_eq]
  have hblanks : r.blanks = r'.blanks := by
    rw [hnumeral] at hfront
    exact List.append_cancel_left hfront
  have hcount : r.count = r'.count := by
    have hreads := r.reads
    rw [hnumeral, r'.reads] at hreads
    exact (Except.ok.inj hreads).symm
  cases r
  cases r'
  subst hunit hnumeral hblanks hcount
  rfl

end Reading

/-- What has happened when a duration was read. -/
theorem parse_cases {text : String} {n : ℕ} (h : parse text = .ok n) :
    ∃ u front x, splitUnit? (trim text.toList) = some (u, front) ∧ float? (trim front) = .ok x ∧
      isCount x = true ∧ wholePart (x * u.nanos) = n := by
  simp only [parse] at h
  split at h
  case h_1 => cases h
  case h_2 u front hsplit =>
    split at h
    case h_1 => cases h
    case h_2 x hreads =>
      split at h
      case isTrue hcount => exact ⟨u, front, x, hsplit, hreads, hcount, Except.ok.inj h⟩
      case isFalse => cases h

theorem exists_reading {text : String} {n : ℕ} (h : parse text = .ok n) :
    ∃ r : Reading text, r.nanos = n := by
  obtain ⟨u, front, x, hsplit, hreads, hcount, hn⟩ := parse_cases h
  have htext := splitUnit?_eq_some hsplit
  have hfront : trim front ++ front.rtakeWhile isBlank = front := by
    rw [trim, trimStart_of_trim htext, trimEnd_split]
  obtain ⟨hfinite, hnonneg⟩ := isCount_iff.mp hcount
  let r : Reading text :=
    ⟨trim front, front.rtakeWhile isBlank, u, x, by rw [hfront, htext],
      fun c hc => List.mem_rtakeWhile_imp hc, hreads, hfinite, hnonneg⟩
  exact ⟨r, r.wholePart_eq.symm.trans hn⟩

/-- **The grammar of durations.**  A text is read as a duration exactly if it has a reading, and
this is the only one it has. -/
theorem parse_reads (text : String) :
    (∀ r r' : Reading text, r = r') ∧
      ∀ n, parse text = .ok n ↔ ∃ r : Reading text, r.nanos = n :=
  ⟨fun r r' => r.unique r', fun _ => ⟨exists_reading, fun ⟨r, hr⟩ => hr ▸ r.parse_eq⟩⟩

/-- Zero may have a sign, and white space may stand before the unit. -/
example : parse "-0 ms" = .ok 0 := by decide +kernel

end Duration

end RouteTraffic
