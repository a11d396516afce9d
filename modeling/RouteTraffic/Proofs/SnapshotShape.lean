import RouteTraffic.Dashboard
import RouteTraffic.Proofs.PrintedServices

/-! # The shape of a printed service

What is read where a service is written has the shape of a snapshot of it, with the timestamps and
the statuses as texts, if all its counts are finite (`Service.shape?_reread`).  Structures are found
by their field names again, absent fields as absent ones (`structure?_present`). -/

namespace RouteTraffic

open Snapshot (Sample Samples)

/-! ### Structures -/

namespace Json

theorem mapM_eq_some {α β : Type} {f : α → Option β} {g : α → β} {l : List α}
    (h : ∀ a ∈ l, f a = some (g a)) : l.mapM f = some (l.map g) := by
  induction l with
  | nil => rfl
  | cons a l ih =>
      rw [List.mapM_cons, h a List.mem_cons_self, ih fun b hb => h b (List.mem_cons_of_mem a hb)]
      rfl

theorem filter_present_of_not_mem {fields : List (String × Option Json)} {name : String}
    (h : name ∉ fields.map Prod.fst) :
    (fields.filterMap fun (k, v) => v.map (k, ·)).filter (·.1 == name) = [] := by
  rw [List.filter_eq_nil_iff]
  rintro ⟨k, v⟩ hmem hname
  obtain ⟨⟨k', v'⟩, hfield, hkv⟩ := List.mem_filterMap.mp hmem
  obtain ⟨_, -, hk⟩ := Option.map_eq_some_iff.mp hkv
  obtain rfl : k' = k := (Prod.mk.inj hk).1
  obtain rfl : k' = name := eq_of_beq hname
  exact h (List.mem_map_of_mem hfield)

/-- Among fields of different names, each is found by its name, if it is present. -/
theorem filter_present {fields : List (String × Option Json)}
    (hnodup : (fields.map Prod.fst).Nodup) {name : String} {v : Option Json}
    (h : (name, v) ∈ fields) :
    (fields.filterMap fun (k, v) => v.map (k, ·)).filter (·.1 == name) =
      (v.map (name, ·)).toList := by
  induction fields with
  | nil => cases h
  | cons field fields ih =>
      obtain ⟨k, w⟩ := field
      rw [List.map_cons, List.nodup_cons] at hnodup
      rcases List.mem_cons.mp h with heq | hmem
      · obtain ⟨rfl, rfl⟩ := Prod.mk.inj heq
        have hrest := filter_present_of_not_mem hnodup.1
        cases v with
        | none => exact hrest
        | some v =>
            show ((name, v) :: fields.filterMap _).filter (·.1 == name) = [(name, v)]
            rw [List.filter_cons, if_pos (beq_self_eq_true name), hrest]
      · have hname : name ∈ fields.map Prod.fst := List.mem_map_of_mem (f := Prod.fst) hmem
        have hne : ¬ (k == name) = true := fun heq => hnodup.1 (eq_of_beq heq ▸ hname)
        rw [← ih hnodup.2 hmem]
        cases w with
        | none => rfl
        | some w =>
            show ((k, w) :: fields.filterMap _).filter (·.1 == name) = _
            rw [List.filter_cons, if_neg hne]

/-- The fields of a structure that is printed without those that are absent. -/
theorem structure?_present {fields : List (String × Option Json)}
    (hnodup : (fields.map Prod.fst).Nodup) :
    structure? (fields.map Prod.fst) (present fields) = some (fields.map Prod.snd) := by
  rw [present, structure?, List.mapM_map]
  refine mapM_eq_some fun ⟨name, v⟩ h => ?_
  rw [Function.comp, field?, filter_present hnodup h]
  cases v <;> rfl

theorem reread_present (fields : List (String × Option Json)) :
    (present fields).reread = present (fields.map fun f => (f.1, f.2.map reread)) := by
  rw [present, reread, rereadFields_eq_map, present, List.map_filterMap, List.filterMap_map]
  refine congrArg record (List.filterMap_congr fun f _ => ?_)
  obtain ⟨k, v⟩ := f
  cases v <;> rfl

theorem structure?_reread {fields : List (String × Option Json)}
    (hnodup : (fields.map Prod.fst).Nodup) :
    structure? (fields.map Prod.fst) (present fields).reread =
      some (fields.map fun f => f.2.map reread) := by
  have hnames : (fields.map fun f => (f.1, f.2.map reread)).map Prod.fst = fields.map Prod.fst :=
    List.map_map
  rw [reread_present, ← hnames, structure?_present (by rwa [hnames]), List.map_map]
  rfl

theorem optional?_map {α β : Type} {shape : Json → Option β} {toJson : α → Json} {f : α → β}
    {o : Option α} (hnull : ∀ a, toJson a ≠ .null) (h : ∀ a ∈ o, shape (toJson a) = some (f a)) :
    optional? shape (o.map toJson) = some (o.map f) := by
  cases o with
  | none => rfl
  | some a =>
      show nullable? shape (toJson a) = _
      rw [nullable?, h a rfl]
      · rfl
      · exact hnull a

theorem listOf?_reread {α β : Type} {shape : Json → Option β} {toJson : α → Json} {f : α → β}
    {l : List α} (h : ∀ a ∈ l, shape (toJson a).reread = some (f a)) :
    listOf? shape (Json.list (l.map toJson)).reread = some (l.map f) := by
  rw [reread, rereadItems_eq_map, List.map_map, listOf?, List.mapM_map]
  exact mapM_eq_some h

theorem emptyable?_reread {α β : Type} {shape : Json → Option β} {toJson : α → Json} {f : α → β}
    {l : List α} (h : ∀ a ∈ l, shape (toJson a).reread = some (f a)) :
    Snapshot.emptyable? shape (some (Json.list (l.map toJson)).reread) = some (l.map f) := by
  have hlist := listOf?_reread h
  rw [reread] at hlist ⊢
  show (nullable? (listOf? shape) (.list _)).map _ = _
  rw [nullable?, hlist]
  · rfl
  · intro hnull
    cases hnull

end Json

/-! ### Snapshots of services -/

open Json

/-- The sample of a point. -/
def Point.wire (p : Point Float) : Sample := ⟨.text p.time.toText, p.value⟩

/-- The samples of a series. -/
def Series.wire (s : Series Float) : Samples := ⟨s.points.map Point.wire, s.total⟩

/-- A route as a snapshot reports it. -/
def Route.wire (r : Route) : Snapshot.Route :=
  { key := r.key, kind := r.kind, domain := r.domain, port := r.port,
    status := r.status.map RouteStatus.label, latency := r.latency,
    stats := r.stats.map Series.wire }

/-- A service as a snapshot reports it. -/
def Service.wire (s : Service) : Snapshot.Service :=
  { id := s.id, name := s.name, enabled := s.enabled, routes := s.routes.map Route.wire,
    latency := s.latency, stats := s.stats.map Series.wire }

/-- Both counts are finite numbers. -/
abbrev Traffic.IsFinite (t : Traffic Float) : Prop := t.Each (·.isFinite = true)

theorem ofFloat_reread {x : Float} (h : x.isFinite = true) :
    (ofFloat x).reread = ofFloat (rereadDouble x) := if_pos h

theorem Traffic.toJson_reread {t : Traffic Float} (h : t.IsFinite) :
    t.toJson.reread = t.reread.toJson := by
  show Json.record [("sent", (ofFloat t.sent).reread), ("received", (ofFloat t.received).reread)] = _
  rw [ofFloat_reread h.1, ofFloat_reread h.2]
  rfl

theorem Traffic.shape?_toJson (t : Traffic Float) : Snapshot.trafficShape? t.toJson = some t := rfl

theorem Point.shape?_reread {p : Point Float} (h : p.value.IsFinite) :
    Sample.shape? p.toJson.reread = some p.reread.wire := by
  show (Snapshot.trafficShape? p.value.toJson.reread).bind _ = _
  rw [Traffic.toJson_reread h]
  rfl

theorem Series.shape?_reread {s : Series Float} (h : s.HasCounts Traffic.IsFinite) :
    Samples.shape? s.toJson.reread = some s.reread.wire := by
  have hpoints := emptyable?_reread fun p hp => Point.shape?_reread (h.2 p hp)
  have hfields : structure? ["points", "total"] s.toJson.reread =
      some [some (Json.list (s.points.map Point.toJson)).reread, some s.total.reread.toJson] := by
    rw [← Traffic.toJson_reread h.1]
    rfl
  rw [Samples.shape?, hfields]
  simp only [Option.bind_eq_bind, Option.bind_some, hpoints, orAbsent, Traffic.shape?_toJson]
  simp [reread, wire]

/-! ### Routes and services -/

theorem text?_reread (o : Option String) : optional? text? ((o.map .text).map Json.reread) = some o := by
  cases o <;> rfl

theorem float?_reread (o : Option Float) :
    optional? float? ((o.map ofFloat).map Json.reread) = some (rereadLatency o) := by
  cases o with
  | none => rfl
  | some x =>
      cases hfinite : x.isFinite with
      | true =>
          rw [Option.map_some, Option.map_some, ofFloat_reread hfinite, rereadLatency,
            Option.filter_some_pos hfinite]
          rfl
      | false =>
          rw [rereadLatency, Option.filter_some_neg (by simp [hfinite])]
          show optional? float? (some (if x.isFinite then _ else .null)) = _
          rw [hfinite]
          rfl

theorem nat?_reread {α : Type} {toNat : α → ℕ} {ofNat : ℕ → α} {limit : ℕ} (o : Option α)
    (hlimit : ∀ a, toNat a ≤ limit) (hinverse : ∀ a, ofNat (toNat a) = a) :
    (optional? (nat? limit) ((optionalNat (o.map toNat)).map Json.reread)).map (·.map ofNat) =
      some o := by
  cases o with
  | none => rfl
  | some a =>
      have ha : 0 ≤ (toNat a : ℤ) ∧ (toNat a : ℤ) ≤ limit :=
        ⟨Int.natCast_nonneg _, Int.ofNat_le.mpr (hlimit a)⟩
      show ((if 0 ≤ (toNat a : ℤ) ∧ (toNat a : ℤ) ≤ limit then some (toNat a : ℤ).toNat
        else none).map some).map (·.map ofNat) = _
      rw [if_pos ha]
      exact congrArg (some ∘ some) (hinverse a)

theorem samples?_reread {o : Option (Series Float)} (h : ∀ s ∈ o, s.HasCounts Traffic.IsFinite) :
    optional? Samples.shape? ((o.map Series.toJson).map Json.reread) =
      some ((o.map Series.reread).map Series.wire) := by
  rw [Option.map_map, Option.map_map]
  exact optional?_map (fun s => nofun) fun s hs => Series.shape?_reread (h s hs)

theorem Route.shape?_reread {r : Route} (h : ∀ s ∈ r.stats, s.HasCounts Traffic.IsFinite) :
    Snapshot.Route.shape? r.toJson.reread = some r.reread.wire := by
  have hnames : ["key", "type", "domain", "port", "status", "latency", "stats"].Nodup := by decide
  have hfields : structure? ["key", "type", "domain", "port", "status", "latency", "stats"]
      r.toJson.reread = some _ := structure?_reread hnames
  have hstatus : optional? text? ((r.status.map RouteStatus.toJson).map Json.reread) =
      some (r.status.map RouteStatus.label) := by
    cases r.status <;> rfl
  obtain ⟨key, hkey, hkey'⟩ := Option.map_eq_some_iff.mp (nat?_reread r.key
    (fun key => Nat.le_sub_one_of_lt key.toNat_lt) fun _ => UInt32.ofNat_toNat)
  obtain ⟨port, hport, hport'⟩ := Option.map_eq_some_iff.mp (nat?_reread r.port
    (fun port => Nat.le_sub_one_of_lt port.toNat_lt) fun _ => UInt16.ofNat_toNat)
  simp only [Snapshot.Route.shape?, hfields, Option.bind_eq_bind, Option.bind_some, List.map_cons,
    List.map_nil, hkey, hkey', hport, hport', text?_reread, hstatus, float?_reread,
    samples?_reread h]
  rfl

/-- **A printed service is read as a snapshot of one**, of the same service but for its doubles. -/
theorem Service.shape?_reread {s : Service} (h : s.EachSeries (·.HasCounts Traffic.IsFinite)) :
    Snapshot.Service.shape? s.toJson.reread = some s.reread.wire := by
  have hnames : ["id", "name", "enabled", "routes", "latency", "stats"].Nodup := by decide
  have hfields : structure? ["id", "name", "enabled", "routes", "latency", "stats"]
      s.toJson.reread = some _ := structure?_reread hnames
  have hroutes := emptyable?_reread fun r hr => Route.shape?_reread (h.routes r hr)
  simp only [Snapshot.Service.shape?, hfields, Option.bind_eq_bind, Option.bind_some, List.map_cons,
    List.map_nil, text?_reread, Option.map_some, orAbsent, hroutes, float?_reread,
    samples?_reread h.own]
  simp [reread, wire]
  rfl

/-! ### Documents -/

theorem Snapshot.Document.shape?_list {services : List RouteTraffic.Service}
    (h : ∀ s ∈ services, s.EachSeries (·.HasCounts Traffic.IsFinite)) :
    shape? (Json.list (services.map RouteTraffic.Service.toJson)).reread =
      some (.many (services.map fun s => s.reread.wire)) := by
  rw [shape?, listOf?_reread fun s hs => Service.shape?_reread (h s hs)]
  rfl

theorem Snapshot.Document.shape?_one {s : RouteTraffic.Service}
    (h : s.EachSeries (·.HasCounts Traffic.IsFinite)) :
    shape? s.toJson.reread = some (.one s.reread.wire) := by
  rw [shape?, Service.shape?_reread h]
  rfl

end RouteTraffic
