import RouteTraffic.Json.Shape
import RouteTraffic.Snapshot
import Mathlib.Data.List.Nodup

/-! # Places in JSON values

A place is a value with a hole in it, given as the function that puts a value there.  Where a list
or a structure has the wanted shape with one value in the hole, its other parts have theirs, and with
any other value in the hole it is decided by that value alone whether the whole has the shape
(`listOf?_item`, `structure?_field`).  Every item and every field that is read has its place
(`exists_itemPlace`, `exists_fieldPlace`). -/

namespace RouteTraffic.Json

section mapM
variable {α β : Type} {f g : α → Option β}

theorem mapM_congr {l : List α} (h : ∀ a ∈ l, f a = g a) : l.mapM f = l.mapM g := by
  induction l with
  | nil => rfl
  | cons a l ih =>
      rw [List.mapM_cons, List.mapM_cons, h a List.mem_cons_self,
        ih fun b hb => h b (List.mem_cons_of_mem a hb)]

theorem mapM_cons_eq_some {a : α} {l : List α} {results : List β} :
    (a :: l).mapM f = some results ↔
      ∃ b bs, f a = some b ∧ l.mapM f = some bs ∧ b :: bs = results := by
  simp [List.mapM_cons, Option.bind_eq_some_iff]

theorem length_of_mapM {l : List α} {results : List β} (h : l.mapM f = some results) :
    results.length = l.length := by
  induction l generalizing results with
  | nil =>
      obtain rfl : [] = results := Option.some.inj h
      rfl
  | cons a l ih =>
      obtain ⟨b, bs, -, hbs, rfl⟩ := mapM_cons_eq_some.mp h
      rw [List.length_cons, List.length_cons, ih hbs]

theorem getElem?_of_mapM {l : List α} {results : List β} (h : l.mapM f = some results) (i : ℕ) :
    results[i]? = (l[i]?).bind f := by
  induction l generalizing results i with
  | nil =>
      obtain rfl : [] = results := Option.some.inj h
      rfl
  | cons a l ih =>
      obtain ⟨b, bs, hab, hbs, rfl⟩ := mapM_cons_eq_some.mp h
      cases i with
      | zero => exact hab.symm
      | succ i => exact ih hbs i

theorem mapM_set {l : List α} {results : List β} (h : l.mapM f = some results) {i : ℕ}
    (hi : i < l.length) (a : α) : (l.set i a).mapM f = (f a).map fun b => results.set i b := by
  induction l generalizing results i with
  | nil => exact absurd hi (Nat.not_lt_zero i)
  | cons c l ih =>
      obtain ⟨b, bs, hb, hbs, rfl⟩ := mapM_cons_eq_some.mp h
      cases i with
      | zero =>
          rw [List.set_cons_zero, List.mapM_cons, hbs]
          cases f a <;> rfl
      | succ i =>
          rw [List.set_cons_succ, List.mapM_cons, hb, ih hbs (Nat.lt_of_succ_lt_succ hi)]
          cases f a <;> rfl

theorem exists_of_mem_mapM {l : List α} {results : List β} (h : l.mapM f = some results) {b : β}
    (hb : b ∈ results) : ∃ a ∈ l, f a = some b := by
  obtain ⟨i, hi⟩ := List.mem_iff_getElem?.mp hb
  rw [getElem?_of_mapM h] at hi
  obtain ⟨a, ha, hab⟩ := Option.bind_eq_some_iff.mp hi
  exact ⟨a, List.mem_of_getElem? ha, hab⟩

end mapM

/-- The place of one item of a list. -/
inductive ItemPlace : (Json → Json) → Prop where
  | mk (before after : List Json) : ItemPlace fun v => .list (before ++ v :: after)

/-- The place of one field of a structure, found by its name, or by its position among the names. -/
inductive FieldPlace (names : List String) (name : String) : (Json → Json) → Prop where
  | named (before after : List (String × Json)) :
      FieldPlace names name fun v => .record (before ++ (name, v) :: after)
  | positional (before after : List Json) (h : names[before.length]? = some name) :
      FieldPlace names name fun v => .list (before ++ v :: after)

/-! ### What stands around a hole -/

/-- The value is a list or a record. -/
def IsNested (v : Json) : Prop := (∃ vs, v = .list vs) ∨ ∃ fs, v = .record fs

theorem ItemPlace.isNested {place : Json → Json} (h : ItemPlace place) (v : Json) :
    (place v).IsNested := by
  cases h
  exact Or.inl ⟨_, rfl⟩

theorem FieldPlace.isNested {names : List String} {name : String} {place : Json → Json}
    (h : FieldPlace names name place) (v : Json) : (place v).IsNested := by
  cases h
  · exact Or.inr ⟨_, rfl⟩
  · exact Or.inl ⟨_, rfl⟩

theorem IsNested.nullable? {α : Type} {v : Json} (h : v.IsNested) (shape : Json → Option α) :
    Json.nullable? shape v = (shape v).map some := by
  rcases h with ⟨vs, rfl⟩ | ⟨fs, rfl⟩ <;> rfl

theorem IsNested.text? {v : Json} (h : v.IsNested) : optional? Json.text? (some v) = none := by
  rcases h with ⟨vs, rfl⟩ | ⟨fs, rfl⟩ <;> rfl

/-! ### Items -/

section items
variable {α : Type} {shape : Json → Option α} {place : Json → Json}

/-- A list with a hole consists of the same items around what is in the hole. -/
theorem listOf?_item (hplace : ItemPlace place) {v : Json} {l : List α}
    (h : listOf? shape (place v) = some l) :
    ∃ a before after, shape v = some a ∧ l = before ++ a :: after ∧
      ∀ w, listOf? shape (place w) = (shape w).map fun b => before ++ b :: after := by
  obtain ⟨before, after⟩ := hplace
  simp only [listOf?, List.mapM_append, List.mapM_cons, Option.bind_eq_bind,
    Option.bind_eq_some_iff, Option.pure_def, Option.some.injEq] at h ⊢
  obtain ⟨as, has, _, ⟨a, ha, bs, hbs, rfl⟩, rfl⟩ := h
  refine ⟨a, as, bs, ha, rfl, fun w => ?_⟩
  rw [has, hbs]
  cases shape w <;> rfl

theorem exists_itemPlace {v : Json} {l : List α} (h : listOf? shape v = some l) {a : α}
    (ha : a ∈ l) : ∃ place w, ItemPlace place ∧ place w = v ∧ shape w = some a := by
  cases v with
  | list items =>
      obtain ⟨w, hw, hshape⟩ := exists_of_mem_mapM h ha
      obtain ⟨before, after, rfl⟩ := List.append_of_mem hw
      exact ⟨_, w, .mk before after, rfl, hshape⟩
  | _ => cases h

theorem eq_some_of_optional? {o : Option Json} {a : α} (h : optional? shape o = some (some a)) :
    ∃ v, o = some v ∧ shape v = some a := by
  cases o with
  | none => cases h
  | some v =>
      refine ⟨v, rfl, ?_⟩
      cases v with
      | null => cases h
      | _ =>
          obtain ⟨b, hb, hba⟩ := Option.map_eq_some_iff.mp h
          rw [hb, hba]

theorem eq_some_of_emptyable? {o : Option Json} {l : List α}
    (h : Snapshot.emptyable? shape o = some l) {a : α} (ha : a ∈ l) :
    ∃ v, o = some v ∧ listOf? shape v = some l := by
  obtain ⟨found, hfound, hl⟩ := Option.map_eq_some_iff.mp h
  cases found with
  | none =>
      obtain rfl : [] = l := hl
      exact nomatch ha
  | some l' =>
      obtain rfl : l' = l := hl
      exact eq_some_of_optional? hfound

theorem emptyable?_item (hplace : ItemPlace place) (v : Json) :
    Snapshot.emptyable? shape (some (place v)) = listOf? shape (place v) := by
  show (nullable? (listOf? shape) (place v)).map _ = _
  rw [(hplace.isNested v).nullable?, Option.map_map]
  exact Option.map_id'

end items

/-! ### Fields -/

section fields
variable {before after : List (String × Json)} {name : String} {v : Json}

theorem field?_of_ne {other : String} (h : other ≠ name) :
    field? (before ++ (name, v) :: after) other = field? (before ++ after) other := by
  have hname : (name == other) = false := beq_false_of_ne h.symm
  simp only [field?, List.filter_append, List.filter_cons, hname, Bool.false_eq_true, if_false]

/-- A field that is found is not repeated, so that whatever stands there is found. -/
theorem field?_self {found : Option Json}
    (h : field? (before ++ (name, v) :: after) name = some found) (w : Json) :
    field? (before ++ (name, w) :: after) name = some (some w) := by
  simp only [field?, List.filter_append, List.filter_cons, beq_self_eq_true, if_true] at h ⊢
  cases hbefore : before.filter (·.1 == name) with
  | nil =>
      cases hafter : after.filter (·.1 == name) with
      | nil => rfl
      | cons g gs => rw [hbefore, hafter] at h; cases h
  | cons g gs =>
      rw [hbefore] at h
      cases gs <;> cases h

theorem mapM_field? {names : List String} (hnodup : names.Nodup) {values : List (Option Json)}
    (h : names.mapM (field? (before ++ (name, v) :: after)) = some values) (w : Json) :
    names.mapM (field? (before ++ (name, w) :: after)) =
      some (values.set (names.idxOf name) (some w)) := by
  induction names generalizing values with
  | nil =>
      obtain rfl : [] = values := Option.some.inj h
      rfl
  | cons n names ih =>
      obtain ⟨hn, hnames⟩ := List.nodup_cons.mp hnodup
      obtain ⟨x, xs, hx, hxs, rfl⟩ := mapM_cons_eq_some.mp h
      by_cases hname : n = name
      · subst hname
        -- no other name looks at what stands in the hole
        have hrest : names.mapM (field? (before ++ (n, w) :: after)) = some xs := by
          rw [← hxs]
          refine mapM_congr fun m hm => ?_
          have hne : m ≠ n := fun heq => hn (heq ▸ hm)
          rw [field?_of_ne hne, field?_of_ne hne]
        rw [List.mapM_cons, field?_self hx w, hrest, List.idxOf_cons_self]
        rfl
      · rw [List.mapM_cons, field?_of_ne hname, ← field?_of_ne (v := v) hname, hx,
          ih hnames hxs, List.idxOf_cons_ne _ hname]
        rfl

end fields

theorem isNested_of_structure? {names : List String} {v : Json} {values : List (Option Json)}
    (h : structure? names v = some values) : v.IsNested := by
  cases v with
  | list items => exact Or.inl ⟨items, rfl⟩
  | record fields => exact Or.inr ⟨fields, rfl⟩
  | _ => cases h

theorem length_of_structure? {names : List String} {v : Json} {values : List (Option Json)}
    (h : structure? names v = some values) : values.length = names.length := by
  cases v with
  | record fields => exact length_of_mapM h
  | list items =>
      simp only [structure?] at h
      split_ifs at h with hlength
      rw [← Option.some.inj h]
      simp
      omega
  | _ => cases h

/-- A structure with a hole has the same fields around what is in the hole. -/
theorem structure?_field {names : List String} {name : String} {place : Json → Json}
    (hplace : FieldPlace names name place) (hnodup : names.Nodup) {v : Json}
    {values : List (Option Json)} (h : structure? names (place v) = some values) :
    values.length = names.length ∧
      ∀ w, structure? names (place w) = some (values.set (names.idxOf name) (some w)) := by
  refine ⟨length_of_structure? h, fun w => ?_⟩
  cases hplace with
  | named before after => exact mapM_field? hnodup h w
  | positional before after hname =>
      have hindex : names.idxOf name = before.length := by
        obtain ⟨hlt, rfl⟩ := List.getElem?_eq_some_iff.mp hname
        exact hnodup.idxOf_getElem _ hlt
      simp only [structure?, List.length_append, List.length_cons] at h ⊢
      split_ifs at h ⊢ with hlength
      rw [← Option.some.inj h, hindex]
      simp

theorem exists_fieldPlace {names : List String} {v : Json} {values : List (Option Json)}
    (h : structure? names v = some values) {i : ℕ} {name : String} (hname : names[i]? = some name)
    {w : Json} (hw : values[i]? = some (some w)) :
    ∃ place, FieldPlace names name place ∧ place w = v := by
  cases v with
  | record fields =>
      have hfield : some (some w) = field? fields name := by
        rw [← hw, getElem?_of_mapM h, hname]
        rfl
      have hmem : (name, w) ∈ fields := by
        unfold field? at hfield
        split at hfield
        · cases hfield
        · rename_i k u hfilter
          have hku : (k, u) ∈ fields.filter (·.1 == name) := hfilter ▸ List.mem_singleton_self _
          obtain ⟨hmem, hk⟩ := List.mem_filter.mp hku
          obtain rfl : k = name := eq_of_beq hk
          obtain rfl : w = u := Option.some.inj (Option.some.inj hfield)
          exact hmem
        · cases hfield
      obtain ⟨before, after, rfl⟩ := List.append_of_mem hmem
      exact ⟨_, .named before after, rfl⟩
  | list items =>
      simp only [structure?] at h
      split_ifs at h with hlength
      rw [← Option.some.inj h] at hw
      have hitem : items[i]? = some w := by
        rcases Nat.lt_or_ge i items.length with hlt | hge
        · rw [List.getElem?_append_left (by rwa [List.length_map]), List.getElem?_map] at hw
          obtain ⟨u, hu, huw⟩ := Option.map_eq_some_iff.mp hw
          rw [hu, Option.some.inj huw]
        · rw [List.getElem?_append_right (by rwa [List.length_map]), List.getElem?_replicate] at hw
          split_ifs at hw
          cases Option.some.inj hw
      obtain ⟨hlt, rfl⟩ := List.getElem?_eq_some_iff.mp hitem
      refine ⟨_, .positional (items.take i) (items.drop (i + 1)) ?_, ?_⟩
      · rw [List.length_take, Nat.min_eq_left (Nat.le_of_lt hlt), hname]
      · rw [← List.drop_eq_getElem_cons hlt, List.take_append_drop]
  | _ => cases h

end RouteTraffic.Json
