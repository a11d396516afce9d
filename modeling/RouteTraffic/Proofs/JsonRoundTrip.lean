import RouteTraffic.Json.Reader
import RouteTraffic.Proofs.JsonTokens

/-! # Values printed and read back

A value printed on one line is read back as the value it was, but for its doubles, if it is nested
less than 128 deep (`Legible.read_toText`). -/

namespace RouteTraffic.Json

/-! ### Values from tokens -/

/-- The reader, given fuel for the tokens of the value and depth to spare, takes exactly them. -/
def ReadsBack (d : ℕ) (v : Json) : Prop :=
  ∀ {fuel depth ts}, 2 * (toTokens v).length ≤ fuel → d < depth →
    valueWithin fuel depth (toTokens v ++ ts) = .ok (v, ts)

/-- The tokens of a value do not start with the end of a list, and only those of `null` with it. -/
theorem toTokens_eq_cons (v : Json) :
    ∃ t ts, toTokens v = t :: ts ∧ t ≠ .closeList ∧ (t = .null → v = .null) := by
  cases v with
  | null => exact ⟨_, _, rfl, nofun, fun _ => rfl⟩
  | bool b => exact ⟨_, _, rfl, nofun, nofun⟩
  | number n => exact ⟨_, _, rfl, nofun, nofun⟩
  | text s => exact ⟨_, _, rfl, nofun, nofun⟩
  | list vs => cases vs <;> exact ⟨_, _, rfl, nofun, nofun⟩
  | record fs => cases fs <;> exact ⟨_, _, rfl, nofun, nofun⟩

theorem length_itemTokens_pos (vs : List Json) : 0 < (itemTokens vs).length := by
  cases vs <;> exact Nat.succ_pos _

theorem length_le_itemTokens (vs : List Json) : vs.length ≤ (itemTokens vs).length := by
  induction vs with
  | nil => exact Nat.zero_le _
  | cons v vs ih =>
      simp only [itemTokens, List.length_append, List.length_cons]
      omega

theorem length_le_fieldTokens (fs : List (String × Json)) : fs.length ≤ (fieldTokens fs).length := by
  induction fs with
  | nil => exact Nat.zero_le _
  | cons f fs ih =>
      simp only [fieldTokens, List.length_append, List.length_cons]
      omega

theorem length_fieldTokens_pos (fs : List (String × Json)) : 0 < (fieldTokens fs).length := by
  cases fs <;> exact Nat.succ_pos _

theorem itemsWithin_itemTokens {d : ℕ} {v : Json} {vs : List Json}
    (h : ∀ w ∈ v :: vs, ReadsBack d w) {fuel depth : ℕ} {ts : List Token}
    (hfuel : 2 * ((toTokens v).length + (itemTokens vs).length) ≤ fuel) (hd : d < depth) :
    itemsWithin fuel depth (toTokens v ++ (itemTokens vs ++ ts)) = .ok (v :: vs, ts) := by
  induction vs generalizing v fuel with
  | nil =>
      have hclose := length_itemTokens_pos []
      obtain ⟨f, rfl⟩ : ∃ f, fuel = f + 1 := ⟨fuel - 1, by omega⟩
      rw [itemsWithin, h v List.mem_cons_self (by omega) hd]
      rfl
  | cons w ws ih =>
      have hlength : (itemTokens (w :: ws)).length =
          (toTokens w).length + (itemTokens ws).length + 1 := by
        rw [itemTokens, List.length_append, List.length_cons]
        omega
      obtain ⟨f, rfl⟩ : ∃ f, fuel = f + 1 := ⟨fuel - 1, by omega⟩
      have hrest : itemsWithin f depth (toTokens w ++ (itemTokens ws ++ ts)) = .ok (w :: ws, ts) :=
        ih (fun x hx => h x (List.mem_cons_of_mem v hx)) (by omega)
      rw [itemsWithin, h v List.mem_cons_self (by omega) hd]
      simp only [itemTokens, List.cons_append, List.append_assoc, hrest]
      rfl

theorem fieldsWithin_fieldTokens {d : ℕ} {k : String} {v : Json} {fs : List (String × Json)}
    (h : ∀ f ∈ (k, v) :: fs, ReadsBack d f.2) {fuel depth : ℕ} {ts : List Token}
    (hfuel : 2 * ((toTokens v).length + (fieldTokens fs).length) ≤ fuel) (hd : d < depth) :
    fieldsWithin fuel depth
        (.text (.ok k) none :: .colon :: (toTokens v ++ (fieldTokens fs ++ ts))) =
      .ok ((k, v) :: fs, ts) := by
  have hv : ReadsBack d v := h (k, v) List.mem_cons_self
  induction fs generalizing k v fuel with
  | nil =>
      have hclose := length_fieldTokens_pos []
      obtain ⟨f, rfl⟩ : ∃ f, fuel = f + 1 := ⟨fuel - 1, by omega⟩
      rw [fieldsWithin, hv (by omega) hd]
      rfl
  | cons field fs ih =>
      obtain ⟨name, w⟩ := field
      have hlength : (fieldTokens ((name, w) :: fs)).length =
          (toTokens w).length + (fieldTokens fs).length + 3 := by
        rw [fieldTokens, List.length_append, List.length_cons, List.length_cons, List.length_cons]
        omega
      obtain ⟨f, rfl⟩ : ∃ f, fuel = f + 1 := ⟨fuel - 1, by omega⟩
      have hrest : fieldsWithin f depth
            (.text (.ok name) none :: .colon :: (toTokens w ++ (fieldTokens fs ++ ts))) =
          .ok ((name, w) :: fs, ts) :=
        ih (fun x hx => h x (List.mem_cons_of_mem _ hx)) (by omega)
          (h (name, w) (List.mem_cons_of_mem _ List.mem_cons_self))
      rw [fieldsWithin, hv (by omega) hd]
      simp only [fieldTokens, List.cons_append, List.append_assoc, hrest]
      rfl

theorem reads_scalar {d : ℕ} {v : Json} {t : Token} (htokens : toTokens v = [t])
    (hlist : t ≠ .openList) (hrecord : t ≠ .openRecord) (hv : scalar t = .ok v) :
    ReadsBack d v := by
  intro fuel depth ts hfuel _
  rw [htokens, List.length_singleton] at hfuel
  obtain ⟨f, rfl⟩ : ∃ f, fuel = f + 1 := ⟨fuel - 1, by omega⟩
  rw [htokens, List.singleton_append, valueWithin, hv]
  · rfl
  · exact hlist
  · exact hrecord

theorem Legible.readsBack {P : Float → Prop} {d : ℕ} {v : Json} (h : Legible P d v) :
    ReadsBack d v := by
  induction h with
  | null => exact reads_scalar (t := .null) rfl nofun nofun rfl
  | bool b => exact reads_scalar (t := .bool b) rfl nofun nofun rfl
  | @number d n _ => exact reads_scalar (t := .number (.ok n) none) rfl nofun nofun rfl
  | text s => exact reads_scalar (t := .text (.ok s) none) rfl nofun nofun rfl
  | @list d vs _ ih =>
      intro fuel depth ts hfuel hd
      cases vs with
      | nil =>
          obtain ⟨f, rfl⟩ : ∃ f, fuel = f + 1 := ⟨fuel - 1, by simp [toTokens] at hfuel; omega⟩
          simp only [toTokens, List.cons_append, List.nil_append]
          rw [valueWithin, if_neg (by omega)]
      | cons v vs =>
          simp only [toTokens, List.length_append, List.length_cons] at hfuel
          obtain ⟨f, rfl⟩ : ∃ f, fuel = f + 1 := ⟨fuel - 1, by omega⟩
          have hitems : itemsWithin f (depth - 1) (toTokens v ++ (itemTokens vs ++ ts)) =
              .ok (v :: vs, ts) := itemsWithin_itemTokens ih (by omega) (by omega)
          obtain ⟨t, rest, ht, hclose, -⟩ := toTokens_eq_cons v
          simp only [toTokens, List.cons_append, List.append_assoc]
          rw [valueWithin, if_neg (by omega), hitems]
          · rfl
          · intro ts' heq
            rw [ht, List.cons_append] at heq
            exact hclose (List.cons.inj heq).1
  | @record d fs _ ih =>
      intro fuel depth ts hfuel hd
      cases fs with
      | nil =>
          obtain ⟨f, rfl⟩ : ∃ f, fuel = f + 1 := ⟨fuel - 1, by simp [toTokens] at hfuel; omega⟩
          simp only [toTokens, List.cons_append, List.nil_append]
          rw [valueWithin, if_neg (by omega)]
      | cons field fs =>
          obtain ⟨name, v⟩ := field
          simp only [toTokens, List.length_append, List.length_cons] at hfuel
          obtain ⟨f, rfl⟩ : ∃ f, fuel = f + 1 := ⟨fuel - 1, by omega⟩
          have hfields : fieldsWithin f (depth - 1)
                (.text (.ok name) none :: .colon :: (toTokens v ++ (fieldTokens fs ++ ts))) =
              .ok ((name, v) :: fs, ts) := fieldsWithin_fieldTokens ih (by omega) (by omega)
          simp only [toTokens, List.cons_append, List.append_assoc]
          rw [valueWithin, if_neg (by omega), hfields]
          · rfl
          · intro ts' heq
            cases heq

/-! ### Whole texts -/

section
variable {P : Float → Prop} {d : ℕ} {v : Json} (h : Legible P d v) (hd : d < depthLimit)
include h hd

theorem Legible.value_tokens : value (tokens v.toText.toList) = .ok (v.reread, []) := by
  have hread : valueWithin (2 * (toTokens v.reread).length + 1) depthLimit
      (toTokens v.reread ++ []) = .ok (v.reread, []) := h.reread.readsBack (by omega) hd
  rw [List.append_nil] at hread
  rw [toText, String.toList_ofList, h.tokens_render, value, hread]

/-- A printed value is read back, but for its doubles. -/
theorem Legible.read_toText : read v.toText = .ok v.reread := by
  rw [read, h.value_tokens hd]
  rfl

end

theorem Legible.read_toText_self {d : ℕ} {v : Json} (h : Legible (fun _ => False) d v)
    (hd : d < depthLimit) : read v.toText = .ok v := by
  rw [h.read_toText hd, h.reread_eq fun _ hfalse => hfalse.elim]

end RouteTraffic.Json
