import RouteTraffic.Proofs.CheckedSnapshot
import RouteTraffic.Proofs.LenientInstants

/-! # Instants that timestamps stand for

Where the clocks of a zone differ from UTC by whole minutes, every timestamp stands for an instant
that a clock in UTC shows: one in a leap second is in the last second of a minute
(`Snapshot.Timestamp.resolve_onClock`).

The text of an instant is itself a timestamp only in the years of four digits: the strict form has no
others, and the letter at the end is in none of the other forms (`parse_toText_iff`). -/

namespace RouteTraffic

open Text Calendar

/-! ### Fractions -/

theorem Text.ofDigitChars_lt {ds : List Char} (h : ∀ c ∈ ds, isDigit c = true) (v : ℕ) :
    Nat.ofDigitChars 10 ds v < (v + 1) * 10 ^ ds.length := by
  induction ds generalizing v with
  | nil => simp [Nat.ofDigitChars]
  | cons c ds ih =>
      have hc := isDigit_iff.mp (h c List.mem_cons_self)
      have hvalue : c.toNat - '0'.toNat ≤ 9 := by
        have : '0'.toNat = 48 := rfl
        omega
      have hstep : 10 * v + (c.toNat - '0'.toNat) + 1 ≤ (v + 1) * 10 := by omega
      refine (ih (fun d hd => h d (List.mem_cons_of_mem c hd)) _).trans_le ?_
      rw [List.length_cons, Nat.pow_succ, Nat.mul_comm (10 ^ _), ← Nat.mul_assoc]
      exact Nat.mul_le_mul_right _ hstep

theorem Text.ofDigits_lt {ds : List Char} (h : ∀ c ∈ ds, isDigit c = true) :
    ofDigits ds < 10 ^ ds.length := by
  simpa [ofDigits_eq_ofDigitChars] using ofDigitChars_lt h 0

namespace Instant

theorem fraction_lt {cs rest : List Char} {n : ℕ} (h : fraction cs = .ok (n, rest)) :
    n < 1000000000 := by
  unfold fraction at h
  split at h
  · cases h
  · split_ifs at h
    rename_i c cs' hc
    obtain ⟨rfl, -⟩ := Prod.mk.inj (Except.ok.inj h)
    set ds := ((c :: cs').takeWhile isDigit).take 9 with hds
    have hdigits : ∀ d ∈ ds, isDigit d = true := fun d hd =>
      List.all_eq_true.mp List.all_takeWhile d (List.mem_of_mem_take hd)
    have hlength : ds.length ≤ 9 := List.length_take_le 9 _
    calc ofDigits ds * Decimal.tenPow (9 - ds.length)
        < 10 ^ ds.length * Decimal.tenPow (9 - ds.length) := by
          exact Nat.mul_lt_mul_of_pos_right (ofDigits_lt hdigits) (Decimal.tenPow_pos _)
      _ = 1000000000 := by
          rw [Decimal.tenPow_eq, ← Nat.pow_add, Nat.add_sub_cancel' hlength]

theorem optionalFraction_lt {cs rest : List Char} {n : ℕ}
    (h : optionalFraction cs = .ok (n, rest)) : n < 1000000000 := by
  unfold optionalFraction at h
  split at h
  · exact fraction_lt h
  · obtain ⟨rfl, -⟩ := Prod.mk.inj (Except.ok.inj h)
    decide

/-- A local time in a leap second is in the last second of a minute. -/
def LocalTime.IsOnClock (t : LocalTime) : Prop := t.nanos < 1000000000 ∨ t.secondOfDay % 60 = 59

theorem LocalTime.of?_onClock {date : Date} {h m s n : ℕ} {t : LocalTime} (hn : n < 1000000000)
    (ht : of? date h m s n = some t) : t.IsOnClock := by
  unfold of? at ht
  split_ifs at ht with hvalid hleap
  · obtain rfl := Option.some.inj ht
    right
    dsimp only
    omega
  · obtain rfl := Option.some.inj ht
    left
    dsimp only
    omega

theorem offsetBody_wholeMinutes {separator : List Char → Except Fault (List Char)}
    {cs rest : List Char} {s : ℕ} (h : offsetBody separator cs = .ok (s, rest)) : s % 60 = 0 := by
  obtain ⟨⟨⟨h₁, h₂⟩, cs₁⟩, -, h⟩ := bind_eq_ok h
  obtain ⟨cs₂, -, h⟩ := bind_eq_ok h
  obtain ⟨⟨⟨m₁, m₂⟩, cs₃⟩, -, h⟩ := bind_eq_ok h
  dsimp only at h
  split_ifs at h
  obtain ⟨rfl, -⟩ := Prod.mk.inj (Except.ok.inj h)
  omega

theorem offset_wholeMinutes {separator : List Char → Except Fault (List Char)}
    {cs rest : List Char} {east : ℤ} (h : offset separator cs = .ok (east, rest)) :
    east % 60 = 0 := by
  unfold offset at h
  split at h
  · cases h
  · split_ifs at h
    · obtain ⟨rfl, -⟩ := Prod.mk.inj (Except.ok.inj h)
      rfl
    · obtain ⟨⟨s, cs'⟩, hbody, hs⟩ := map_eq_ok h
      obtain ⟨rfl, -⟩ := Prod.mk.inj hs
      have := offsetBody_wholeMinutes hbody
      omega
    · obtain ⟨⟨s, cs'⟩, hbody, hs⟩ := map_eq_ok h
      obtain ⟨rfl, -⟩ := Prod.mk.inj hs
      have := offsetBody_wholeMinutes hbody
      omega

theorem of?_onClock {time : LocalTime} (h : time.IsOnClock) {offset : ℤ} (hoffset : offset % 60 = 0)
    {t : Instant} (ht : of? (time.seconds - offset) time.nanos = some t) : t.IsOnClock := by
  obtain ⟨hseconds, hnanos⟩ := of?_eq_some_iff.mp ht
  rcases h with hordinary | hclock
  · left
    rw [isOrdinary, decide_eq_true_eq]
    omega
  · right
    unfold LocalTime.seconds at hseconds
    omega

theorem withOffset_onClock {time : LocalTime} (h : time.IsOnClock) {east : ℤ}
    (heast : east % 60 = 0) {t : Instant} (ht : withOffset time east = .ok t) : t.IsOnClock := by
  unfold withOffset inRange at ht
  split_ifs at ht
  split at ht
  · rename_i hat
    exact Except.ok.inj ht ▸ of?_onClock h heast hat
  · cases ht

theorem parseStrict_onClock {cs : List Char} {t : Instant} (h : parseStrict cs = .ok t) :
    t.IsOnClock := by
  unfold parseStrict at h
  dsimp only at h
  split_ifs at h with hlength
  · cases h
  obtain ⟨⟨year, cs₁⟩, -, h⟩ := bind_eq_ok h
  obtain ⟨cs₂, -, h⟩ := bind_eq_ok h
  obtain ⟨⟨month, cs₃⟩, -, h⟩ := bind_eq_ok h
  obtain ⟨cs₄, -, h⟩ := bind_eq_ok h
  obtain ⟨⟨day, cs₅⟩, -, h⟩ := bind_eq_ok h
  dsimp only at h
  split_ifs at h with hdate
  · cases h
  obtain ⟨cs₆, -, h⟩ := bind_eq_ok h
  obtain ⟨⟨hour, cs₇⟩, -, h⟩ := bind_eq_ok h
  obtain ⟨cs₈, -, h⟩ := bind_eq_ok h
  obtain ⟨⟨minute, cs₉⟩, -, h⟩ := bind_eq_ok h
  obtain ⟨cs₁₀, -, h⟩ := bind_eq_ok h
  obtain ⟨⟨second, cs₁₁⟩, -, h⟩ := bind_eq_ok h
  obtain ⟨⟨nanos, cs₁₂⟩, hfraction, h⟩ := bind_eq_ok h
  obtain ⟨time, htime, h⟩ := bind_eq_ok h
  obtain ⟨⟨east, cs₁₃⟩, hoffset, h⟩ := bind_eq_ok h
  dsimp only at h
  split_ifs at h with htrailing
  · cases h
  have hclock : time.IsOnClock := by
    unfold inRange at htime
    split at htime
    · rename_i hof
      exact Except.ok.inj htime ▸ LocalTime.of?_onClock (optionalFraction_lt hfraction) hof
    · cases htime
  exact withOffset_onClock hclock (offset_wholeMinutes hoffset) h

theorem fraction?_lt {cs rest : List Char} {n : ℕ} (h : fraction? cs = some (n, rest)) :
    n < 1000000000 := by
  unfold fraction? at h
  cases hcs : optionalFraction cs with
  | error f => rw [hcs] at h; cases h
  | ok r =>
      rw [hcs] at h
      obtain rfl : r = (n, rest) := Option.some.inj h
      exact optionalFraction_lt hcs

theorem localSeconds?_onClock {sep : Separator} {cs : List Char} {time : LocalTime}
    (h : localSeconds? sep cs = some time) : time.IsOnClock := by
  unfold localSeconds? at h
  simp only [Option.bind_eq_bind, Option.bind_eq_some_iff] at h
  obtain ⟨⟨date, cs₁⟩, -, cs₂, -, ⟨hour, cs₃⟩, -, cs₄, -, ⟨minute, cs₅⟩, -, cs₆, -, ⟨second, cs₇⟩,
    -, ⟨nanos, cs₈⟩, hfraction, h⟩ := h
  split_ifs at h
  exact LocalTime.of?_onClock (fraction?_lt hfraction) h

theorem localMinutes?_onClock {cs : List Char} {time : LocalTime}
    (h : localMinutes? cs = some time) : time.IsOnClock := by
  unfold localMinutes? at h
  simp only [Option.bind_eq_bind, Option.bind_eq_some_iff] at h
  obtain ⟨⟨date, cs₁⟩, -, cs₂, -, ⟨hour, cs₃⟩, -, cs₄, -, ⟨minute, cs₅⟩, -, h⟩ := h
  split_ifs at h
  exact LocalTime.of?_onClock (by decide) h

theorem localTime?_onClock {cs : List Char} {time : LocalTime} (h : localTime? cs = some time) :
    time.IsOnClock := by
  unfold localTime? at h
  cases hletter : localSeconds? .letterT cs with
  | some t =>
      rw [hletter] at h
      exact Option.some.inj h ▸ localSeconds?_onClock hletter
  | none =>
      cases hblanks : localSeconds? .blanks cs with
      | some t =>
          rw [hletter, hblanks] at h
          exact Option.some.inj h ▸ localSeconds?_onClock hblanks
      | none =>
          rw [hletter, hblanks] at h
          exact localMinutes?_onClock h

end Instant

/-- The clocks of the zone differ from UTC by whole minutes. -/
def Calendar.Zone.IsWholeMinutes (z : Zone) : Prop :=
  z.standard % 60 = 0 ∧ ∀ d ∈ z.daylight, d.offset % 60 = 0

theorem Calendar.Zone.IsWholeMinutes.offsetOfLocal? {z : Zone} (h : z.IsWholeMinutes)
    {localSeconds offset : ℤ} (hoffset : z.offsetOfLocal? localSeconds = some offset) :
    offset % 60 = 0 := by
  unfold Zone.offsetOfLocal? at hoffset
  cases hd : z.daylight with
  | none =>
      rw [hd] at hoffset
      exact Option.some.inj hoffset ▸ h.1
  | some d =>
      have hdaylight := h.2 d hd
      have hstandard := h.1
      rw [hd] at hoffset
      dsimp only at hoffset
      split_ifs at hoffset <;> simp_all

namespace Instant

theorem truncateToMillis_onClock {t : Instant} (h : t.IsOnClock) : t.truncateToMillis.IsOnClock := by
  unfold truncateToMillis
  split_ifs
  · exact h
  · rcases h with hordinary | hclock
    · left
      rw [isOrdinary, decide_eq_true_eq] at hordinary ⊢
      exact (Nat.sub_le _ _).trans_lt hordinary
    · exact Or.inr hclock

theorem midnight?_onClock {cs : List Char} {t : Instant} (h : midnight? cs = some t) :
    t.IsOnClock := by
  unfold midnight? at h
  obtain ⟨⟨date, rest⟩, -, h⟩ := Option.bind_eq_some_iff.mp h
  dsimp only at h
  split_ifs at h
  obtain ⟨time, htime, h⟩ := Option.bind_eq_some_iff.mp h
  exact of?_onClock (LocalTime.of?_onClock (by decide) htime) (by decide) h

theorem parse_onClock {zone : Calendar.Zone} (hzone : zone.IsWholeMinutes) {text : String}
    {t : Instant} (h : parse zone text = .ok t) : t.IsOnClock := by
  unfold parse at h
  dsimp only at h
  split at h
  · rename_i hstrict
    exact Except.ok.inj h ▸ truncateToMillis_onClock (parseStrict_onClock hstrict)
  · split at h
    · rename_i hlocal
      split at h
      · rename_i hinstant
        obtain ⟨offset, hoffset, hof⟩ := Option.bind_eq_some_iff.mp hinstant
        exact Except.ok.inj h ▸ truncateToMillis_onClock
          (of?_onClock (localTime?_onClock hlocal) (hzone.offsetOfLocal? hoffset) hof)
      · cases h
    · split at h
      · rename_i hmidnight
        exact Except.ok.inj h ▸ midnight?_onClock hmidnight
      · cases h

end Instant

/-- **Every timestamp stands for an instant that the clock shows**, where clocks differ from UTC by
whole minutes. -/
theorem Snapshot.Timestamp.resolve_onClock {zone : Calendar.Zone} (hzone : zone.IsWholeMinutes)
    {stamp : Timestamp} {t : Instant} (h : stamp.resolve zone = .ok t) : t.IsOnClock := by
  cases stamp with
  | text s =>
      unfold resolve parseTimestamp at h
      dsimp only at h
      split at h
      · rename_i hs
        exact Except.ok.inj h ▸ Instant.parse_onClock hzone hs
      · cases h
  | millis ms =>
      unfold resolve timestampOfMillis at h
      dsimp only at h
      split at h
      · rename_i t' hms
        obtain ⟨-, hnanos⟩ := Instant.of?_eq_some_iff.mp hms
        left
        rw [← Except.ok.inj h, Instant.isOrdinary, decide_eq_true_eq]
        omega
      · cases h

/-! ### Printed texts -/

namespace Instant

theorem parseStrict_signed {t : Instant} (h : ¬ t.HasPlainYear) :
    ∃ f, parseStrict t.render = .error f := by
  obtain ⟨c, cs, hcs, hc⟩ : ∃ c cs, t.render = c :: cs ∧ isDigit c = false := by
    have hyear : ¬ (0 ≤ (Date.ofDayNumber (t.seconds / 86400)).year ∧
        (Date.ofDayNumber (t.seconds / 86400)).year ≤ 9999) := h
    simp only [render, dateText, yearText, if_neg hyear]
    refine ⟨_, _, rfl, ?_⟩
    split_ifs <;> rfl
  have hdigits : exactDigits 4 (c :: cs) 0 = .error .invalid := by
    rw [exactDigits, if_neg (by rw [hc]; decide)]
  rw [hcs, parseStrict]
  dsimp only
  split_ifs
  · exact ⟨_, rfl⟩
  · rw [hdigits]
    exact ⟨_, rfl⟩

section
variable (t : Instant)

theorem render_eq : t.render = dateText (Date.ofDayNumber (t.seconds / 86400)) ++ 'T' ::
    (paddedDigits 2 (t.secondOfDay.toNat / 3600) ++ ':' ::
      (paddedDigits 2 (t.secondOfDay.toNat / 60 % 60) ++ ':' ::
        (paddedDigits 2 (t.secondOfDay.toNat % 60 + t.leapSecond) ++
          (fractionText (t.nanos % 1000000000) ++ ['Z'])))) := by
  simp only [render, clockText, List.append_assoc, List.cons_append]

theorem date?_render : date? id t.render = some (Date.ofDayNumber (t.seconds / 86400), 'T' ::
    (paddedDigits 2 (t.secondOfDay.toNat / 3600) ++ ':' ::
      (paddedDigits 2 (t.secondOfDay.toNat / 60 % 60) ++ ':' ::
        (paddedDigits 2 (t.secondOfDay.toNat % 60 + t.leapSecond) ++
          (fractionText (t.nanos % 1000000000) ++ ['Z']))))) := by
  obtain ⟨hmonth, hday⟩ := Date.ofDayNumber_lt (t.seconds / 86400)
  rw [render_eq]
  exact date?_dateText (head?_cons_isDigit rfl _) id (fun _ => rfl) hmonth hday

theorem midnight?_render : midnight? t.render = none := by
  simp only [midnight?, date?_render, Option.bind_eq_bind, Option.bind_some]
  rfl

theorem localTime?_render : localTime? t.render = none := by
  have hsecond : t.secondOfDay = t.seconds % 86400 := rfl
  have hleap := t.leapSecond_le
  have hhour (rest : List Char) := numberUpTo?_paddedDigits (n := t.secondOfDay.toNat / 3600)
    (head?_cons_isDigit (c := ':') rfl rest) (w := 2) (by decide) (by omega)
  have hminute (rest : List Char) := numberUpTo?_paddedDigits
    (n := t.secondOfDay.toNat / 60 % 60) (head?_cons_isDigit (c := ':') rfl rest) (w := 2)
    (by decide) (by omega)
  have hseconds := numberUpTo?_paddedDigits (n := t.secondOfDay.toNat % 60 + t.leapSecond)
    (head?_fractionText (t.nanos % 1000000000)) (w := 2) (by decide) (by omega)
  have hfraction := fraction?_fractionText (Nat.mod_lt t.nanos (by decide : 0 < 1000000000))
  have hletter : localSeconds? .letterT t.render = none := by
    simp only [localSeconds?, date?_render, Separator.skip?, char?, if_true, hhour, hminute,
      hseconds, hfraction, Option.bind_eq_bind, Option.bind_some]
    rfl
  have hblanks : localSeconds? .blanks t.render = none := by
    have hnone (rest : List Char) : numberUpTo? 2 ('T' :: rest) = none := by
      simp [numberUpTo?, trimStart_cons (c := 'T') rfl, show isDigit 'T' = false from rfl]
    simp only [localSeconds?, date?_render, Separator.skip?, trimStart_cons (c := 'T') rfl, hnone,
      Option.bind_eq_bind, Option.bind_some, Option.bind_none]
  have hminutes : localMinutes? t.render = none := by
    simp only [localMinutes?, date?_render, char?, if_true, hhour, hminute, Option.bind_eq_bind,
      Option.bind_some]
    rfl
  rw [localTime?, hletter, hblanks, hminutes]
  rfl

end

/-- **The text of an instant is a timestamp in the years of four digits**, and in no others. -/
theorem parse_toText_iff (zone : Zone) (t : Instant) :
    (∃ u, parse zone t.toText = .ok u) ↔ t.HasPlainYear := by
  by_cases h : t.HasPlainYear
  · exact iff_of_true ⟨_, parse_toText zone h⟩ h
  · obtain ⟨f, hf⟩ := parseStrict_signed h
    have hparse : parse zone t.toText = .error f := by
      simp only [parse, toText, String.toList_ofList, trim_render, hf, localTime?_render,
        midnight?_render]
    refine iff_of_false ?_ h
    rintro ⟨u, hu⟩
    rw [hparse] at hu
    cases hu

end Instant
end RouteTraffic
