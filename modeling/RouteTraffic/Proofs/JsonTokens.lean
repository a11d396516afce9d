import RouteTraffic.Json.Printer
import RouteTraffic.Json.Token
import RouteTraffic.Proofs.DoubleNumerals

/-! # The tokens of a printed value

A value on one line is cut into the tokens of a value that differs from it in its doubles only
(`Legible.tokens_render`): each is the one that its text is read as, and what is no finite number
is `null` (`reread`).  Strings are read as they were (`readString_escaped`). -/

namespace RouteTraffic.Json

open Text

/-! ### Strings -/

theorem hexValue?_hexDigit : ∀ n < 16, hexValue? (escapeChar.hexDigit n) = some n := by decide

theorem hex4?_control {n : ℕ} (h : n < 0x20) :
    hex4? '0' '0' (escapeChar.hexDigit (n / 16)) (escapeChar.hexDigit (n % 16)) = some n := by
  rw [hex4?, hexValue?_hexDigit _ (by omega), hexValue?_hexDigit _ (by omega)]
  show some (((0 * 16 + 0) * 16 + n / 16) * 16 + n % 16) = some n
  congr
  omega

/-- A character is written as a letter after a backslash, as its number if it is a control
character, or as it is. -/
theorem escapeChar_cases (c : Char) :
    (∃ e, e ≠ 'u' ∧ escapeChar c = ['\\', e] ∧ escaped? e = some c) ∨
      (c.toNat < 0x20 ∧ escapeChar c =
        ['\\', 'u', '0', '0', escapeChar.hexDigit (c.toNat / 16),
          escapeChar.hexDigit (c.toNat % 16)]) ∨
      (c ≠ '"' ∧ c ≠ '\\' ∧ ¬ c.toNat < 0x20 ∧ escapeChar c = [c]) := by
  unfold escapeChar
  split_ifs with h1 h2 h3 h4 h5 h6 h7 hcontrol
  · exact Or.inl ⟨'"', by decide, rfl, by rw [h1]; rfl⟩
  · exact Or.inl ⟨'\\', by decide, rfl, by rw [h2]; rfl⟩
  · exact Or.inl ⟨'b', by decide, rfl, by rw [h3]; rfl⟩
  · exact Or.inl ⟨'f', by decide, rfl, by rw [h4]; rfl⟩
  · exact Or.inl ⟨'n', by decide, rfl, by rw [h5]; rfl⟩
  · exact Or.inl ⟨'r', by decide, rfl, by rw [h6]; rfl⟩
  · exact Or.inl ⟨'t', by decide, rfl, by rw [h7]; rfl⟩
  · exact Or.inr (Or.inl ⟨hcontrol, rfl⟩)
  · exact Or.inr (Or.inr ⟨h1, h2, hcontrol, rfl⟩)

theorem readString_escapeChar (c : Char) (rest : List Char) :
    readString (escapeChar c ++ rest) = consChar c (readString rest) := by
  rcases escapeChar_cases c with ⟨e, hu, heq, he⟩ | ⟨hcontrol, heq⟩ | ⟨hquote, hslash, hplain, heq⟩
  · simp [heq, readString, hu, he]
  · -- a control character is no half of a surrogate pair
    have hlow : isLowSurrogate c.toNat = false := by
      simp only [isLowSurrogate, Bool.and_eq_false_iff, decide_eq_false_iff_not]
      omega
    have hhigh : isHighSurrogate c.toNat = false := by
      simp only [isHighSurrogate, Bool.and_eq_false_iff, decide_eq_false_iff_not]
      omega
    simp only [heq, List.cons_append, List.nil_append, readString, hex4?_control hcontrol, hlow,
      hhigh, Bool.false_eq_true, if_false, Char.ofNat_toNat]
  · simp [heq, readString, hslash, hplain]

theorem skipString_escapeChar (c : Char) (rest : List Char) :
    skipString (escapeChar c ++ rest) = skipString rest := by
  rcases escapeChar_cases c with ⟨e, hu, heq, he⟩ | ⟨hcontrol, heq⟩ | ⟨hquote, hslash, hplain, heq⟩
  · simp [heq, skipString, hu, he]
  · simp only [heq, List.cons_append, List.nil_append, skipString, hex4?_control hcontrol]
  · simp [heq, skipString, hslash, hplain]

theorem readString_escaped (cs rest : List Char) :
    readString (cs.flatMap escapeChar ++ '"' :: rest) = .ok (cs, rest) := by
  induction cs with
  | nil => rw [List.flatMap_nil, List.nil_append, readString]
  | cons c cs ih =>
      rw [List.flatMap_cons, List.append_assoc, readString_escapeChar, ih]
      rfl

theorem skipString_escaped (cs rest : List Char) :
    skipString (cs.flatMap escapeChar ++ '"' :: rest) = .ok rest := by
  induction cs with
  | nil => rw [List.flatMap_nil, List.nil_append, skipString]
  | cons c cs ih => rw [List.flatMap_cons, List.append_assoc, skipString_escapeChar, ih]

/-! ### Single tokens -/

theorem token_text (s : String) (rest : List Char) :
    token '"' (s.toList.flatMap escapeChar ++ '"' :: rest) = (.text (.ok s) none, some rest) := by
  simp [token, skipString_escaped, readString_escaped, Except.map]

theorem exists_cons_of_readNumber {cs rest : List Char} {n : Number}
    (h : readNumber cs = .ok (n, rest)) :
    ∃ c cs', cs = c :: cs' ∧ (c = '-' || isDigit c) = true := by
  match cs, h with
  | c :: cs, h =>
      refine ⟨c, cs, rfl, ?_⟩
      by_cases hminus : c = '-'
      · rw [decide_eq_true hminus, Bool.true_or]
      · have hdigits : (c :: cs).takeWhile isDigit ≠ [] := by
          intro hnone
          rw [readNumber, hnone] at h
          · cases h
          · exact fun rest heq => hminus (List.cons.inj heq).1
        by_cases hc : isDigit c = true
        · rw [hc, Bool.or_true]
        · exact absurd (List.takeWhile_cons_of_neg hc) hdigits

theorem token_number {c : Char} {cs rest : List Char} {n : Number}
    (hc : (c = '-' || isDigit c) = true) (hread : readNumber (c :: cs) = .ok (n, rest))
    (hskip : skipNumber (c :: cs) = .ok rest) :
    isSpace c = false ∧ token c cs = (.number (.ok n) none, some rest) := by
  have hne {d : Char} (hd : (d = '-' || isDigit d) = false) : c ≠ d := by
    rintro rfl
    rw [hc] at hd
    cases hd
  have hspace : isSpace c = false := by
    simp only [isSpace, hne (d := ' ') rfl, hne (d := '\n') rfl, hne (d := '\t') rfl,
      hne (d := '\r') rfl, decide_false, Bool.or_false]
  refine ⟨hspace, ?_⟩
  simp only [token, hne (d := '[') rfl, hne (d := ']') rfl, hne (d := '\x7b') rfl,
    hne (d := '\x7d') rfl, hne (d := ',') rfl, hne (d := ':') rfl, hne (d := '"') rfl,
    hne (d := 'n') rfl, hne (d := 't') rfl, hne (d := 'f') rfl, hc, if_true, if_false, hread, hskip,
    Except.map]

/-! ### Values -/

mutual

/-- The tokens that a value is printed as. -/
def toTokens : Json → List Token
  | .null => [.null]
  | .bool b => [.bool b]
  | .number n => [.number (.ok n) none]
  | .text s => [.text (.ok s) none]
  | .list [] => [.openList, .closeList]
  | .list (v :: vs) => .openList :: toTokens v ++ itemTokens vs
  | .record [] => [.openRecord, .closeRecord]
  | .record ((k, v) :: fs) =>
    .openRecord :: .text (.ok k) none :: .colon :: toTokens v ++ fieldTokens fs

/-- The tokens of the items after the first, with the end of the list. -/
def itemTokens : List Json → List Token
  | [] => [.closeList]
  | v :: vs => .comma :: toTokens v ++ itemTokens vs

/-- The tokens of the fields after the first, with the end of the record. -/
def fieldTokens : List (String × Json) → List Token
  | [] => [.closeRecord]
  | (k, v) :: fs => .comma :: .text (.ok k) none :: .colon :: toTokens v ++ fieldTokens fs

end

/-! ### What is read where a value is written -/

/-- The number that is read where this one is written; what is no finite number is lost. -/
def Number.reread : Number → Json
  | .whole i => .number (.whole i)
  | .real x => if x.isFinite then .number (.real (rereadDouble x)) else .null

mutual

/-- The value that is read where this one is written. -/
def reread : Json → Json
  | .null => .null
  | .bool b => .bool b
  | .number n => n.reread
  | .text s => .text s
  | .list vs => .list (rereadItems vs)
  | .record fs => .record (rereadFields fs)

/-- Each item is read where it is written. -/
def rereadItems : List Json → List Json
  | [] => []
  | v :: vs => v.reread :: rereadItems vs

/-- Each field is read where it is written. -/
def rereadFields : List (String × Json) → List (String × Json)
  | [] => []
  | (k, v) :: fs => (k, v.reread) :: rereadFields fs

end

theorem rereadItems_eq_map (vs : List Json) : rereadItems vs = vs.map reread := by
  induction vs with
  | nil => rfl
  | cons v vs ih => rw [rereadItems, ih, List.map_cons]

theorem rereadFields_eq_map (fs : List (String × Json)) :
    rereadFields fs = fs.map fun f => (f.1, f.2.reread) := by
  induction fs with
  | nil => rfl
  | cons f fs ih => rw [rereadFields, ih, List.map_cons]

/-- A whole number has 64 bits, and a double has a property. -/
def Number.IsLegible (P : Float → Prop) : Number → Prop
  | .whole i => -((maxSigned64 + 1 : ℕ) : ℤ) ≤ i ∧ i ≤ maxUnsigned64
  | .real x => P x

/-- The whole numbers of a value have 64 bits, its doubles have a property, and its lists and
records are nested at most so deep. -/
inductive Legible (P : Float → Prop) : ℕ → Json → Prop where
  | null {d : ℕ} : Legible P d .null
  | bool {d : ℕ} (b : Bool) : Legible P d (.bool b)
  | number {d : ℕ} {n : Number} (h : n.IsLegible P) : Legible P d (.number n)
  | text {d : ℕ} (s : String) : Legible P d (.text s)
  | list {d : ℕ} {vs : List Json} (h : ∀ v ∈ vs, Legible P d v) : Legible P (d + 1) (.list vs)
  | record {d : ℕ} {fs : List (String × Json)} (h : ∀ f ∈ fs, Legible P d f.2) :
      Legible P (d + 1) (.record fs)

section
variable {P : Float → Prop} {d : ℕ}

theorem Legible.reread {v : Json} (h : Legible P d v) : Legible (fun _ => True) d v.reread := by
  induction h with
  | null => exact .null
  | bool b => exact .bool b
  | @number d n hn =>
      cases n with
      | whole i => exact .number hn
      | real x =>
          rw [Json.reread, Number.reread]
          split_ifs
          · exact .number trivial
          · exact .null
  | text s => exact .text s
  | list _ ih =>
      rw [Json.reread, rereadItems_eq_map]
      refine .list fun w hw => ?_
      obtain ⟨v, hv, rfl⟩ := List.mem_map.mp hw
      exact ih v hv
  | record _ ih =>
      rw [Json.reread, rereadFields_eq_map]
      refine .record fun w hw => ?_
      obtain ⟨f, hf, rfl⟩ := List.mem_map.mp hw
      exact ih f hf

theorem Legible.reread_eq {v : Json} (h : Legible P d v)
    (hP : ∀ x, P x → x.isFinite = true ∧ rereadDouble x = x) : v.reread = v := by
  induction h with
  | null => rfl
  | bool b => rfl
  | @number d n hn =>
      cases n with
      | whole i => rfl
      | real x =>
          obtain ⟨hfinite, hx⟩ := hP x hn
          rw [Json.reread, Number.reread, if_pos hfinite, hx]
  | text s => rfl
  | list _ ih =>
      rw [Json.reread, rereadItems_eq_map, List.map_congr_left ih, List.map_id']
  | @record d fs _ ih =>
      have hfields : ∀ f ∈ fs, (f.1, f.2.reread) = f := fun f hf => by rw [ih f hf]
      rw [Json.reread, rereadFields_eq_map, List.map_congr_left hfields, List.map_id']

end

/-! ### Cutting a text -/

theorem tokensWithin_cons {c : Char} {cs rest : List Char} {t : Token} (hspace : isSpace c = false)
    (h : token c cs = (t, some rest)) (fuel : ℕ) :
    tokensWithin (fuel + 1) (c :: cs) = t :: tokensWithin fuel rest := by
  rw [tokensWithin, hspace, h]
  rfl

theorem tokensWithin_stringText (s : String) (rest : List Char) (fuel : ℕ) :
    tokensWithin (fuel + 1) (stringText s ++ rest) =
      .text (.ok s) none :: tokensWithin fuel rest := by
  have htext : stringText s ++ rest = '"' :: (s.toList.flatMap escapeChar ++ '"' :: rest) := by
    rw [stringText, List.cons_append, List.cons_append, List.append_assoc]
    rfl
  rw [htext]
  exact tokensWithin_cons rfl (token_text s rest) fuel

theorem tokensWithin_number {P : Float → Prop} {n : Number} (h : n.IsLegible P) {rest : List Char}
    (hrest : EndsNumber rest) (fuel : ℕ) :
    ∃ t, toTokens n.reread = [t] ∧
      tokensWithin (fuel + 1) (n.render ++ rest) = t :: tokensWithin fuel rest := by
  have hnumber {m : Number} (hread : readNumber (n.render ++ rest) = .ok (m, rest))
      (hskip : skipNumber (n.render ++ rest) = .ok rest) :
      tokensWithin (fuel + 1) (n.render ++ rest) = .number (.ok m) none :: tokensWithin fuel rest := by
    obtain ⟨c, cs, hcs, hc⟩ := exists_cons_of_readNumber hread
    rw [hcs] at hread hskip ⊢
    obtain ⟨hspace, htoken⟩ := token_number hc hread hskip
    exact tokensWithin_cons hspace htoken fuel
  cases n with
  | whole i =>
      exact ⟨_, rfl, hnumber (readNumber_signedDigits h.1 h.2 hrest) (skipNumber_signedDigits i hrest)⟩
  | real x =>
      rw [Number.reread]
      split_ifs with hfinite
      · obtain ⟨hread, hskip⟩ := readsAs_rereadDouble hfinite rest hrest
        exact ⟨_, rfl, hnumber hread hskip⟩
      · refine ⟨_, rfl, ?_⟩
        rw [Number.render, doubleText_of_not_isFinite (Bool.eq_false_iff.mpr hfinite)]
        exact tokensWithin_cons rfl rfl fuel

theorem render_ne_nil {P : Float → Prop} {n : Number} (h : n.IsLegible P) : n.render ≠ [] := by
  intro hnil
  obtain ⟨t, -, ht⟩ := tokensWithin_number h endsNumber_nil 0
  rw [hnil] at ht
  cases ht

theorem endsNumber_cons {c : Char} (h : isDigit c = false ∧ c ≠ '.' ∧ c ≠ 'e' ∧ c ≠ 'E')
    (rest : List Char) : EndsNumber (c :: rest) := by
  intro d hd
  obtain rfl : c = d := Option.some.inj hd
  exact h

theorem endsNumber_renderItems (vs : List Json) (rest : List Char) :
    EndsNumber (renderItems vs ++ rest) := by
  cases vs with
  | nil => exact endsNumber_cons (by decide) rest
  | cons v vs => exact endsNumber_cons (by decide) _

theorem endsNumber_renderFields (fs : List (String × Json)) (rest : List Char) :
    EndsNumber (renderFields fs ++ rest) := by
  cases fs with
  | nil => exact endsNumber_cons (by decide) rest
  | cons f fs => exact endsNumber_cons (by decide) _

/-- The text of a value is cut into the tokens of what is read, each of which takes one step. -/
def CutsInto (v : Json) : Prop :=
  ∀ {rest fuel k}, EndsNumber rest → fuel = (toTokens v.reread).length + k →
    tokensWithin fuel (v.render ++ rest) = toTokens v.reread ++ tokensWithin k rest

theorem tokensWithin_renderItems {vs : List Json} (h : ∀ v ∈ vs, CutsInto v) {rest : List Char}
    {fuel k : ℕ} (hfuel : fuel = (itemTokens (rereadItems vs)).length + k) :
    tokensWithin fuel (renderItems vs ++ rest) =
      itemTokens (rereadItems vs) ++ tokensWithin k rest := by
  induction vs generalizing fuel with
  | nil =>
      obtain rfl : fuel = k + 1 := hfuel.trans (Nat.add_comm _ _)
      exact tokensWithin_cons rfl rfl k
  | cons v vs ih =>
      simp only [rereadItems, itemTokens, List.length_append, List.length_cons] at hfuel
      obtain ⟨f, rfl⟩ : ∃ f, fuel = f + 1 := ⟨fuel - 1, by omega⟩
      have hv := h v List.mem_cons_self (endsNumber_renderItems vs rest)
        (show f = (toTokens v.reread).length + ((itemTokens (rereadItems vs)).length + k) by omega)
      rw [ih (fun w hw => h w (List.mem_cons_of_mem v hw)) rfl] at hv
      simp only [rereadItems, itemTokens, renderItems, List.cons_append, List.append_assoc]
      rw [← hv]
      exact tokensWithin_cons rfl rfl f

theorem tokensWithin_renderFields {fs : List (String × Json)} (h : ∀ f ∈ fs, CutsInto f.2)
    {rest : List Char} {fuel k : ℕ} (hfuel : fuel = (fieldTokens (rereadFields fs)).length + k) :
    tokensWithin fuel (renderFields fs ++ rest) =
      fieldTokens (rereadFields fs) ++ tokensWithin k rest := by
  induction fs generalizing fuel with
  | nil =>
      obtain rfl : fuel = k + 1 := hfuel.trans (Nat.add_comm _ _)
      exact tokensWithin_cons rfl rfl k
  | cons field fs ih =>
      obtain ⟨name, v⟩ := field
      simp only [rereadFields, fieldTokens, List.length_append, List.length_cons] at hfuel
      obtain ⟨f, rfl⟩ : ∃ f, fuel = f + 3 := ⟨fuel - 3, by omega⟩
      have hv := h (name, v) List.mem_cons_self (endsNumber_renderFields fs rest)
        (show f = (toTokens v.reread).length + ((fieldTokens (rereadFields fs)).length + k) by omega)
      rw [ih (fun g hg => h g (List.mem_cons_of_mem _ hg)) rfl] at hv
      simp only [rereadFields, fieldTokens, renderFields, List.cons_append, List.append_assoc]
      rw [← hv, tokensWithin_cons rfl rfl, tokensWithin_stringText, tokensWithin_cons rfl rfl]

section
variable {P : Float → Prop} {d : ℕ} {v : Json} (h : Legible P d v)
include h

/-- The text of a legible value is cut into tokens. -/
theorem Legible.cutsInto : CutsInto v := by
  induction h with
  | null =>
      rintro rest _ k - rfl
      exact (congrArg (tokensWithin · _) (Nat.add_comm 1 k)).trans (tokensWithin_cons rfl rfl k)
  | bool b =>
      rintro rest _ k - rfl
      refine (congrArg (tokensWithin · _) (Nat.add_comm 1 k)).trans ?_
      cases b <;> exact tokensWithin_cons rfl rfl k
  | number hn =>
      rintro rest _ k hrest rfl
      obtain ⟨t, ht, htoken⟩ := tokensWithin_number hn hrest k
      rw [Json.reread, ht, List.length_singleton, Nat.add_comm]
      exact htoken
  | text s =>
      rintro rest _ k - rfl
      refine (congrArg (tokensWithin · _) (Nat.add_comm 1 k)).trans ?_
      exact tokensWithin_stringText s rest k
  | @list d vs _ ih =>
      rintro rest fuel k - hfuel
      cases vs with
      | nil =>
          obtain rfl : fuel = k + 2 := hfuel.trans (Nat.add_comm _ _)
          exact (tokensWithin_cons rfl rfl (k + 1)).trans
            (congrArg _ (tokensWithin_cons rfl rfl k))
      | cons v vs =>
          simp only [Json.reread, rereadItems, toTokens, List.length_append, List.length_cons]
            at hfuel
          obtain ⟨f, rfl⟩ : ∃ f, fuel = f + 1 := ⟨fuel - 1, by omega⟩
          have hv := ih v List.mem_cons_self (endsNumber_renderItems vs rest)
            (show f = (toTokens v.reread).length + ((itemTokens (rereadItems vs)).length + k) by
              omega)
          rw [tokensWithin_renderItems (fun w hw => ih w (List.mem_cons_of_mem v hw)) rfl] at hv
          simp only [Json.reread, rereadItems, toTokens, render, List.cons_append,
            List.append_assoc]
          rw [← hv]
          exact tokensWithin_cons rfl rfl f
  | @record d fs _ ih =>
      rintro rest fuel k - hfuel
      cases fs with
      | nil =>
          obtain rfl : fuel = k + 2 := hfuel.trans (Nat.add_comm _ _)
          exact (tokensWithin_cons rfl rfl (k + 1)).trans
            (congrArg _ (tokensWithin_cons rfl rfl k))
      | cons field fs =>
          obtain ⟨name, v⟩ := field
          simp only [Json.reread, rereadFields, toTokens, List.length_append, List.length_cons]
            at hfuel
          obtain ⟨f, rfl⟩ : ∃ f, fuel = f + 3 := ⟨fuel - 3, by omega⟩
          have hv := ih (name, v) List.mem_cons_self (endsNumber_renderFields fs rest)
            (show f = (toTokens v.reread).length + ((fieldTokens (rereadFields fs)).length + k) by
              omega)
          rw [tokensWithin_renderFields (fun g hg => ih g (List.mem_cons_of_mem _ hg)) rfl] at hv
          simp only [Json.reread, rereadFields, toTokens, render, List.cons_append,
            List.append_assoc]
          rw [← hv, tokensWithin_cons rfl rfl, tokensWithin_stringText, tokensWithin_cons rfl rfl]

end

/-! ### Whole texts -/

theorem length_itemTokens_le {vs : List Json}
    (h : ∀ v ∈ vs, (toTokens v.reread).length ≤ v.render.length) :
    (itemTokens (rereadItems vs)).length ≤ (renderItems vs).length := by
  induction vs with
  | nil => exact Nat.le_refl _
  | cons v vs ih =>
      have hv := h v List.mem_cons_self
      have hvs := ih fun w hw => h w (List.mem_cons_of_mem v hw)
      simp only [rereadItems, itemTokens, renderItems, List.length_append, List.length_cons]
      omega

theorem length_fieldTokens_le {fs : List (String × Json)}
    (h : ∀ f ∈ fs, (toTokens f.2.reread).length ≤ f.2.render.length) :
    (fieldTokens (rereadFields fs)).length ≤ (renderFields fs).length := by
  induction fs with
  | nil => exact Nat.le_refl _
  | cons field fs ih =>
      obtain ⟨name, v⟩ := field
      have hv : (toTokens v.reread).length ≤ v.render.length := h (name, v) List.mem_cons_self
      have hfs := ih fun g hg => h g (List.mem_cons_of_mem _ hg)
      simp only [rereadFields, fieldTokens, renderFields, stringText, List.length_append,
        List.length_cons]
      omega

section
variable {P : Float → Prop} {d : ℕ} {v : Json} (h : Legible P d v)
include h

theorem Legible.length_toTokens_le : (toTokens v.reread).length ≤ v.render.length := by
  induction h with
  | null => decide
  | bool b => cases b <;> decide
  | number hn =>
      obtain ⟨t, ht, -⟩ := tokensWithin_number hn endsNumber_nil 0
      rw [Json.reread, ht, render]
      exact List.length_pos_of_ne_nil (render_ne_nil hn)
  | text s => exact Nat.le_add_left _ _
  | @list d vs _ ih =>
      cases vs with
      | nil => exact Nat.le_refl _
      | cons v vs =>
          have hv := ih v List.mem_cons_self
          have hvs := length_itemTokens_le fun w hw => ih w (List.mem_cons_of_mem v hw)
          simp only [Json.reread, rereadItems, toTokens, render, List.length_append,
            List.length_cons]
          omega
  | @record d fs _ ih =>
      cases fs with
      | nil => exact Nat.le_refl _
      | cons field fs =>
          obtain ⟨name, v⟩ := field
          have hv : (toTokens v.reread).length ≤ v.render.length :=
            ih (name, v) List.mem_cons_self
          have hfs := length_fieldTokens_le fun g hg => ih g (List.mem_cons_of_mem _ hg)
          simp only [Json.reread, rereadFields, toTokens, render, stringText, List.length_append,
            List.length_cons]
          omega

/-- The tokens of a text that was printed are those of the value that is read. -/
theorem Legible.tokens_render : tokens v.render = toTokens v.reread := by
  have hlength := h.length_toTokens_le
  have hcut := h.cutsInto endsNumber_nil (show v.render.length =
    (toTokens v.reread).length + (v.render.length - (toTokens v.reread).length) by omega)
  rw [List.append_nil] at hcut
  rw [tokens, hcut]
  cases v.render.length - (toTokens v.reread).length <;> exact List.append_nil _

end

end RouteTraffic.Json
