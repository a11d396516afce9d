import RouteTraffic.Json.Decoder
import RouteTraffic.Route.Json
import RouteTraffic.Proofs.JsonRoundTrip

/-! # Reading typed values back

A reader of a type takes the tokens of a value that was printed and gives what the value stands
for (`Reads`).  Readers of lists do if those of their items do (`reads_list`).  Readers of structures
fill one field after another: each field that is present leads from one state of the structure to
the next (`Fills`), and at the end no required one is missing (`Fills.reads`). -/

namespace RouteTraffic.Json.Decoder

variable {α β σ : Type}

/-- The reader takes exactly the tokens of a value, whatever follows them. -/
def Reads (d : Decoder α) (v : Json) (a : α) : Prop :=
  ∀ ts, d (toTokens v ++ ts) = .ok (a, ts)

/-! ### Single values -/

theorem reads_text (s : String) : Reads text (.text s) s := fun _ => rfl

theorem reads_bool (b : Bool) : Reads bool (.bool b) b := fun _ => rfl

theorem reads_float (x : Float) : Reads float (ofFloat x) x := fun _ => rfl

theorem reads_nat {limit n : ℕ} (h : n ≤ limit) : Reads (nat limit) (Json.ofNat n) n := by
  intro ts
  have hn : Number.toNat? limit (.whole n) = some n := by simp [Number.toNat?, h]
  simp [nat, Json.ofNat, toTokens, hn]

section
variable {d : Decoder α} {v : Json} {a : α} (h : Reads d v a)
include h

theorem Reads.map (f : α → β) : Reads (d.map f) v (f a) := by
  intro ts
  simp [Decoder.map, h ts, Except.map]

theorem Reads.filterMap {f : α → Option β} {b : β} (hf : f a = some b) :
    Reads (d.filterMap f) v b := by
  intro ts
  simp [Decoder.filterMap, h ts, hf]

theorem Reads.nullable (hv : v ≠ .null) : Reads d.nullable v (some a) := by
  intro ts
  obtain ⟨t, rest, ht, -, hnull⟩ := toTokens_eq_cons v
  have hread := h ts
  rw [ht, List.cons_append] at hread ⊢
  rw [Decoder.nullable, hread]
  · rfl
  · intro _ heq
    exact hv (hnull (List.cons.inj heq).1)

end

/-! ### Lists -/

theorem itemsWithin_read {d : Decoder α} {toJson : α → Json} {a : α} {l : List α}
    (h : ∀ b ∈ a :: l, Reads d (toJson b) b) {fuel : ℕ} (hfuel : l.length < fuel)
    (ts : List Token) :
    itemsWithin d fuel (toTokens (toJson a) ++ (itemTokens (l.map toJson) ++ ts)) =
      .ok (a :: l, ts) := by
  induction l generalizing a fuel with
  | nil =>
      obtain ⟨f, rfl⟩ : ∃ f, fuel = f + 1 := ⟨fuel - 1, by omega⟩
      simp [itemsWithin, itemTokens, h a List.mem_cons_self _]
  | cons b l ih =>
      obtain ⟨f, rfl⟩ : ∃ f, fuel = f + 1 := ⟨fuel - 1, by omega⟩
      have hrest := ih (fun c hc => h c (List.mem_cons_of_mem a hc))
        (show l.length < f by simp at hfuel; omega)
      -- what comes after the comma is an item and no end of the list
      obtain ⟨t, rest, ht, hclose, -⟩ := toTokens_eq_cons (toJson b)
      simp only [List.map_cons, itemTokens, List.cons_append, List.append_assoc] at hrest ⊢
      rw [itemsWithin, h a List.mem_cons_self]
      rw [ht, List.cons_append] at hrest ⊢
      simp [hclose, hrest, Except.map]

theorem reads_list {d : Decoder α} {toJson : α → Json} {l : List α}
    (h : ∀ a ∈ l, Reads d (toJson a) a) : Reads (list d) (.list (l.map toJson)) l := by
  intro ts
  cases l with
  | nil => rfl
  | cons a l =>
      obtain ⟨t, rest, ht, hclose, -⟩ := toTokens_eq_cons (toJson a)
      have hlength : l.length ≤ (itemTokens (l.map toJson)).length := by
        simpa using length_le_itemTokens (l.map toJson)
      have hitems := itemsWithin_read h
        (show l.length < (toTokens (toJson a) ++ (itemTokens (l.map toJson) ++ ts)).length by
          simp [ht]; omega) ts
      simp only [List.map_cons, toTokens, List.cons_append, List.append_assoc]
      rw [list, hitems]
      · intro ts' heq
        rw [ht, List.cons_append] at heq
        exact hclose (List.cons.inj heq).1
      · simp [ht]

/-! ### Structures -/

/-- Fields that are present lead from one state of a structure to another, in their order. -/
inductive Fills (fields : List (Field σ)) : List (String × Json) → σ → σ → Prop where
  | nil {s : σ} : Fills fields [] s s
  | cons {name : String} {v : Json} {fs : List (String × Json)} {s t : σ} {f : Field σ}
      {set : σ → σ} (hfield : fields.find? (·.name == name) = some f) (hread : Reads f.read v set)
      (h : Fills fields fs (set s) t) : Fills fields ((name, v) :: fs) s t

variable {fields : List (Field σ)}

theorem Fills.optional {name : String} {v : Json} {fs : List (String × Json)} {s t : σ}
    {d : Decoder α} {a : α} {set : α → σ → σ}
    (hfield : fields.find? (·.name == name) = some (.optional name d set)) (hread : Reads d v a)
    (h : Fills fields fs (set a s) t) : Fills fields ((name, v) :: fs) s t :=
  .cons hfield (hread.map set) h

theorem Fills.required {name : String} {v : Json} {fs : List (String × Json)} {s t : σ}
    {d : Decoder α} {a : α} {set : α → σ → σ}
    (hfield : fields.find? (·.name == name) = some (.required name d set)) (hread : Reads d v a)
    (h : Fills fields fs (set a s) t) : Fills fields ((name, v) :: fs) s t :=
  .cons hfield (hread.map set) h

theorem fieldValue_read {name : String} {v : Json} {s : σ} {f : Field σ} {set : σ → σ}
    (hfield : fields.find? (·.name == name) = some f) (hread : Reads f.read v set)
    {seen : List String} (hseen : name ∉ seen) (ts : List Token) :
    fieldValue fields seen name s (.colon :: (toTokens v ++ ts)) =
      .ok ((name :: seen, set s), ts) := by
  simp [fieldValue, hfield, hseen, hread ts, Except.map]

theorem complete_of_seen {seen : List String} (s : σ)
    (h : ∀ f ∈ fields, f.isRequired = true → f.name ∈ seen) : complete fields seen s = .ok s := by
  refine if_pos (List.all_eq_true.mpr fun f hf => ?_)
  cases hrequired : f.isRequired with
  | false => rfl
  | true => simp [h f hf hrequired]

/-- The fields of a record are read in their order, if no name is repeated and none that is
required is missing. -/
theorem namedWithin_read {name : String} {v : Json} {fs : List (String × Json)} {s t : σ}
    (h : Fills fields ((name, v) :: fs) s t) (seen : List String)
    (hnodup : (seen ++ name :: fs.map Prod.fst).Nodup)
    (hrequired : ∀ f ∈ fields, f.isRequired = true → f.name ∈ seen ++ name :: fs.map Prod.fst)
    {fuel : ℕ} (hfuel : fs.length < fuel) (ts : List Token) :
    namedWithin fields fuel seen s
        (.text (.ok name) none :: .colon :: (toTokens v ++ (fieldTokens fs ++ ts))) =
      .ok (t, ts) := by
  induction fs generalizing name v s seen fuel with
  | nil =>
      obtain ⟨fuel, rfl⟩ : ∃ k, fuel = k + 1 := ⟨fuel - 1, by omega⟩
      cases h with
      | @cons _ _ _ _ _ f set hfield hread h =>
          cases h
          rw [List.map_nil, List.perm_middle.nodup_iff, List.append_nil] at hnodup
          have hcomplete : complete fields (name :: seen) (set s) = .ok (set s) :=
            complete_of_seen _ fun f hf hr => by
              simpa [or_comm] using hrequired f hf hr
          simp [namedWithin, fieldValue_read hfield hread (List.nodup_cons.mp hnodup).1, fieldTokens,
            hcomplete, Except.map]
  | cons field fs ih =>
      obtain ⟨next, w⟩ := field
      obtain ⟨fuel, rfl⟩ : ∃ k, fuel = k + 1 := ⟨fuel - 1, by omega⟩
      cases h with
      | @cons _ _ _ _ _ f set hfield hread h =>
          rw [List.perm_middle.nodup_iff] at hnodup
          have hseen : name ∉ seen := fun hmem =>
            (List.nodup_cons.mp hnodup).1 (List.mem_append_left _ hmem)
          have hrest := ih h (name :: seen) hnodup
            (fun f hf hr => List.perm_middle.mem_iff.mp (hrequired f hf hr))
            (Nat.lt_of_succ_lt_succ hfuel)
          simp [namedWithin, fieldValue_read hfield hread hseen, fieldTokens, hrest]

/-- A structure is read from a record that fills it, field by field. -/
theorem Fills.reads {fs : List (String × Json)} {s t : σ} (h : Fills fields fs s t)
    (hnodup : (fs.map Prod.fst).Nodup)
    (hrequired : ∀ f ∈ fields, f.isRequired = true → f.name ∈ fs.map Prod.fst) :
    Reads (object fields s) (.record fs) t := by
  intro ts
  cases fs with
  | nil =>
      cases h
      have hcomplete : complete fields [] s = .ok s := complete_of_seen s hrequired
      simp only [toTokens, List.cons_append, List.nil_append, object, hcomplete]
      rfl
  | cons field fs =>
      obtain ⟨name, v⟩ := field
      have hlength := length_le_fieldTokens fs
      have hread := namedWithin_read h [] hnodup hrequired
        (show fs.length <
            (.text (.ok name) none :: .colon ::
              (toTokens v ++ (fieldTokens fs ++ ts)) : List Token).length by
          simp only [List.length_cons, List.length_append]
          omega) ts
      simp only [toTokens, List.cons_append, List.append_assoc]
      rw [object, hread]
      simp

/-! ### Structures whose fields may be absent -/

/-- What the fields that are present make of a structure. -/
def FillsPresent (fields : List (Field σ)) (fs : List (String × Option Json)) (s t : σ) : Prop :=
  Fills fields (fs.filterMap fun (k, v) => v.map (k, ·)) s t

variable {name : String} {fs : List (String × Option Json)} {s t : σ} {d : Decoder α}

theorem FillsPresent.nil : FillsPresent fields [] s s := Fills.nil

theorem FillsPresent.always {v : Json} {a : α} {set : α → σ → σ}
    (hfield : fields.find? (·.name == name) = some (.optional name d set)) (hread : Reads d v a)
    (h : FillsPresent fields fs (set a s) t) : FillsPresent fields ((name, some v) :: fs) s t :=
  Fills.optional hfield hread h

/-- A field that is left out if it is absent, and stays as it was then. -/
theorem FillsPresent.sometimes {o : Option α} {toJson : α → Json} {set : Option α → σ → σ}
    (hfield : fields.find? (·.name == name) = some (.optional name d.nullable set))
    (hread : ∀ a ∈ o, Reads d (toJson a) a) (hnull : ∀ a, toJson a ≠ .null) (hset : set none s = s)
    (h : FillsPresent fields fs (set o s) t) :
    FillsPresent fields ((name, o.map toJson) :: fs) s t := by
  cases o with
  | none => exact hset ▸ h
  | some a => exact Fills.optional hfield ((hread a rfl).nullable (hnull a)) h

theorem names_present (fs : List (String × Option Json)) :
    ((fs.filterMap fun (k, v) => v.map (k, ·)).map Prod.fst).Sublist (fs.map Prod.fst) := by
  induction fs with
  | nil => exact List.Sublist.refl []
  | cons f fs ih =>
      obtain ⟨k, v⟩ := f
      cases v with
      | none => exact ih.cons k
      | some v => exact ih.cons_cons k

theorem FillsPresent.reads (h : FillsPresent fields fs s t) (hnodup : (fs.map Prod.fst).Nodup)
    (hrequired : ∀ f ∈ fields, f.isRequired = false) :
    Reads (object fields s) (present fs) t := by
  refine Fills.reads h ?_ fun f hf hr => ?_
  · exact (names_present fs).nodup hnodup
  · simp [hrequired f hf] at hr

end RouteTraffic.Json.Decoder
