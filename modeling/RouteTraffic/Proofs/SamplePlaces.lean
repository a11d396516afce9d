import RouteTraffic.Proofs.CheckedSnapshot
import RouteTraffic.Proofs.FirstFault
import RouteTraffic.Proofs.JsonPlaces

/-! # One sample of a document

Every sample of a document has its place there (`Snapshot.Document.exists_place`).  A document with
a hole for one sample is read as a document around that sample, and under the lenient policy a
dashboard shows the point of the sample, if it is well formed, among the same other points, routes and
services (`Snapshot.Document.Place.carries`). -/

namespace RouteTraffic

open Json

/-! ### Places of samples -/

namespace Snapshot

/-- The names of the fields of a route. -/
abbrev Route.names : List String :=
  ["key", "type", "domain", "port", "status", "latency", "stats"]

/-- The names of the fields of a service. -/
abbrev Service.names : List String := ["id", "name", "enabled", "routes", "latency", "stats"]

/-- The place of a sample in a series. -/
inductive Samples.Place : (Json → Json) → Prop where
  | mk {f g : Json → Json} (hf : FieldPlace ["points", "total"] "points" f) (hg : ItemPlace g) :
      Place fun v => f (g v)

/-- The place of a sample in the series of a route. -/
inductive Route.Place : (Json → Json) → Prop where
  | mk {f g : Json → Json} (hf : FieldPlace Route.names "stats" f) (hg : Samples.Place g) :
      Place fun v => f (g v)

/-- The place of a sample in the series of a service or of one of its routes. -/
inductive Service.Place : (Json → Json) → Prop where
  | routes {f g h : Json → Json} (hf : FieldPlace Service.names "routes" f) (hg : ItemPlace g)
      (hh : Route.Place h) : Place fun v => f (g (h v))
  | own {f g : Json → Json} (hf : FieldPlace Service.names "stats" f) (hg : Samples.Place g) :
      Place fun v => f (g v)

/-- The place of a sample in a document that was read as a list of services, or as one service. -/
inductive Document.Place : Document → (Json → Json) → Prop where
  | many (services : List Service) {f g : Json → Json} (hf : ItemPlace f) (hg : Service.Place g) :
      Place (.many services) fun v => f (g v)
  | one (service : Service) {f : Json → Json} (hf : Service.Place f) : Place (.one service) f

end Snapshot

/-! ### What is read of a structure -/

namespace Snapshot
variable {v : Json}

theorem Samples.shape?_split {samples : Samples} (h : Samples.shape? v = some samples) :
    ∃ points total, structure? ["points", "total"] v = some [points, total] ∧
      emptyable? Sample.shape? points = some samples.points ∧
      ∀ {w : Json} {points'}, structure? ["points", "total"] w = some [points', total] →
        Samples.shape? w =
          (emptyable? Sample.shape? points').map fun ps => { samples with points := ps } := by
  obtain ⟨values, hvalues, h⟩ := Option.bind_eq_some_iff.mp h
  match values, length_of_structure? hvalues with
  | [points, total], _ =>
    simp only [Option.bind_eq_bind, Option.bind_eq_some_iff, Option.pure_def,
      Option.some.injEq] at h
    obtain ⟨_, hpoints, _, htotal, rfl⟩ := h
    refine ⟨points, total, hvalues, hpoints, fun hw => ?_⟩
    simp only [Samples.shape?, hw, Option.bind_eq_bind, Option.bind_some, htotal]
    exact (Option.map_eq_bind ..).symm

theorem Route.shape?_split {r : Route} (h : Route.shape? v = some r) :
    ∃ key kind domain port status latency stats,
      structure? Route.names v = some [key, kind, domain, port, status, latency, stats] ∧
      optional? Samples.shape? stats = some r.stats ∧
      ∀ {w : Json} {stats'},
        structure? Route.names w = some [key, kind, domain, port, status, latency, stats'] →
        Route.shape? w = (optional? Samples.shape? stats').map fun t => { r with stats := t } := by
  obtain ⟨values, hvalues, h⟩ := Option.bind_eq_some_iff.mp h
  match values, length_of_structure? hvalues with
  | [key, kind, domain, port, status, latency, stats], _ =>
    simp only [Option.bind_eq_bind, Option.bind_eq_some_iff, Option.pure_def,
      Option.some.injEq] at h
    obtain ⟨_, hkey, _, hkind, _, hdomain, _, hport, _, hstatus, _, hlatency, _, hstats, rfl⟩ := h
    refine ⟨key, kind, domain, port, status, latency, stats, hvalues, hstats, fun hw => ?_⟩
    simp only [Route.shape?, hw, Option.bind_eq_bind, Option.bind_some, hkey, hkind, hdomain,
      hport, hstatus, hlatency]
    exact (Option.map_eq_bind ..).symm

/-- The routes and the series of a service are read by themselves. -/
theorem Service.shape?_split {s : Service} (h : Service.shape? v = some s) :
    ∃ id name enabled routes latency stats,
      structure? Service.names v = some [id, name, enabled, routes, latency, stats] ∧
      optional? text? id = some s.id ∧ emptyable? Route.shape? routes = some s.routes ∧
      optional? Samples.shape? stats = some s.stats ∧
      ∀ {w : Json} {routes' stats'},
        structure? Service.names w = some [id, name, enabled, routes', latency, stats'] →
        Service.shape? w = (emptyable? Route.shape? routes').bind fun rs =>
          (optional? Samples.shape? stats').map fun t => { s with routes := rs, stats := t } := by
  obtain ⟨values, hvalues, h⟩ := Option.bind_eq_some_iff.mp h
  match values, length_of_structure? hvalues with
  | [id, name, enabled, routes, latency, stats], _ =>
    simp only [Option.bind_eq_bind, Option.bind_eq_some_iff, Option.pure_def,
      Option.some.injEq] at h
    obtain ⟨_, hid, _, hname, _, henabled, _, hroutes, _, hlatency, _, hstats, rfl⟩ := h
    refine ⟨id, name, enabled, routes, latency, stats, hvalues, hid, hroutes, hstats,
      fun hw => ?_⟩
    simp only [Service.shape?, hw, Option.bind_eq_bind, Option.bind_some, hid, hname, henabled,
      hlatency, Option.map_eq_bind]
    rfl

end Snapshot

/-! ### Every sample has a place -/

namespace Snapshot
variable {v : Json}

/-- The sample is one of a service, in its own series or in that of one of its routes. -/
def Service.HasSample (s : Service) (sample : Sample) : Prop :=
  (∃ r ∈ s.routes, ∃ t ∈ r.stats, sample ∈ t.points) ∨ ∃ t ∈ s.stats, sample ∈ t.points

section
variable {sample : Sample}

theorem Samples.exists_place {samples : Samples} (h : Samples.shape? v = some samples)
    (hsample : sample ∈ samples.points) :
    ∃ place w, Samples.Place place ∧ place w = v ∧ Sample.shape? w = some sample := by
  obtain ⟨points, total, hvalues, hpoints, -⟩ := Samples.shape?_split h
  obtain ⟨u, rfl, hu⟩ := eq_some_of_emptyable? hpoints hsample
  obtain ⟨f, hf, rfl⟩ := exists_fieldPlace (i := 0) hvalues rfl rfl
  obtain ⟨g, w, hg, rfl, hw⟩ := exists_itemPlace hu hsample
  exact ⟨_, w, .mk hf hg, rfl, hw⟩

theorem Route.exists_place {r : Route} (h : Route.shape? v = some r) {t : Samples}
    (ht : t ∈ r.stats) (hsample : sample ∈ t.points) :
    ∃ place w, Route.Place place ∧ place w = v ∧ Sample.shape? w = some sample := by
  obtain ⟨_, _, _, _, _, _, stats, hvalues, hstats, -⟩ := Route.shape?_split h
  rw [Option.mem_def.mp ht] at hstats
  obtain ⟨u, rfl, hu⟩ := eq_some_of_optional? hstats
  obtain ⟨f, hf, rfl⟩ := exists_fieldPlace (i := 6) hvalues rfl rfl
  obtain ⟨g, w, hg, rfl, hw⟩ := Samples.exists_place hu hsample
  exact ⟨_, w, .mk hf hg, rfl, hw⟩

theorem Service.exists_place {s : Service} (h : Service.shape? v = some s)
    (hsample : s.HasSample sample) :
    ∃ place w, Service.Place place ∧ place w = v ∧ Sample.shape? w = some sample := by
  obtain ⟨_, _, _, routes, _, stats, hvalues, -, hroutes, hstats, -⟩ := Service.shape?_split h
  rcases hsample with ⟨r, hr, t, ht, hsample⟩ | ⟨t, ht, hsample⟩
  · obtain ⟨u, rfl, hu⟩ := eq_some_of_emptyable? hroutes hr
    obtain ⟨f, hf, rfl⟩ := exists_fieldPlace (i := 3) hvalues rfl rfl
    obtain ⟨g, x, hg, rfl, hx⟩ := exists_itemPlace hu hr
    obtain ⟨k, w, hk, rfl, hw⟩ := Route.exists_place hx ht hsample
    exact ⟨_, w, .routes hf hg hk, rfl, hw⟩
  · rw [Option.mem_def.mp ht] at hstats
    obtain ⟨u, rfl, hu⟩ := eq_some_of_optional? hstats
    obtain ⟨f, hf, rfl⟩ := exists_fieldPlace (i := 5) hvalues rfl rfl
    obtain ⟨g, w, hg, rfl, hw⟩ := Samples.exists_place hu hsample
    exact ⟨_, w, .own hf hg, rfl, hw⟩

theorem Document.shape?_eq_many {services : List Service} :
    Document.shape? v = some (.many services) ↔ listOf? Service.shape? v = some services := by
  unfold Document.shape?
  cases listOf? Service.shape? v <;> cases Service.shape? v <;> simp

theorem Document.shape?_eq_one {s : Service} :
    Document.shape? v = some (.one s) ↔
      listOf? Service.shape? v = none ∧ Service.shape? v = some s := by
  unfold Document.shape?
  cases listOf? Service.shape? v <;> cases Service.shape? v <;> simp

theorem Document.exists_place {document : Document} (h : Document.shape? v = some document)
    {s : Service} (hs : s ∈ document.services) (hsample : s.HasSample sample) :
    ∃ place w, document.Place place ∧ place w = v ∧ Sample.shape? w = some sample := by
  cases document with
  | many services =>
      obtain ⟨f, x, hf, rfl, hx⟩ := exists_itemPlace (shape?_eq_many.mp h) hs
      obtain ⟨g, w, hg, rfl, hw⟩ := Service.exists_place hx hsample
      exact ⟨_, w, .many services hf hg, rfl, hw⟩
  | one service =>
      obtain rfl : s = service := List.mem_singleton.mp hs
      obtain ⟨f, w, hf, hv, hw⟩ := Service.exists_place (shape?_eq_one.mp h).2 hsample
      exact ⟨f, w, .one s hf, hv, hw⟩

end

end Snapshot

/-! ### What is shown around a point -/

/-- A series around a point that may be missing. -/
inductive Series.Around : (Option (Point Float) → Series Float) → Prop where
  | mk (before after : List (Point Float)) (total : Traffic Float) :
      Around fun p => ⟨before ++ p.toList ++ after, total⟩

/-- A route around a point of its series. -/
inductive Route.Around : (Option (Point Float) → Route) → Prop where
  | mk (r : Route) {f : Option (Point Float) → Series Float} (hf : Series.Around f) :
      Around fun p => { r with stats := some (f p) }

/-- A service around a point of its own series or of that of one of its routes. -/
inductive Service.Around : (Option (Point Float) → Service) → Prop where
  | routes (s : Service) (before after : List Route) {f : Option (Point Float) → Route}
      (hf : Route.Around f) : Around fun p => { s with routes := before ++ f p :: after }
  | own (s : Service) {f : Option (Point Float) → Series Float} (hf : Series.Around f) :
      Around fun p => { s with stats := some (f p) }

/-- A dashboard around a point. -/
inductive Dashboard.Around : (Option (Point Float) → Dashboard) → Prop where
  | mk (before after : List Service) {f : Option (Point Float) → Service} (hf : Service.Around f) :
      Around fun p => ⟨before ++ f p :: after⟩

/-! ### From the sample to the whole -/

section
variable (zone : Calendar.Zone) {α β : Type}

/-- What is taken out of a value with a sample in it is made of that sample, and what is shown of it
is made of the point of the sample, which is missing if the sample is malformed. -/
def Carries (shape : Json → Option α) (check : α → Except MalformedSample β) (place : Json → Json)
    (around : Option (Point Float) → β) : Prop :=
  ∃ make : Snapshot.Sample → α, (∀ v, shape (place v) = (Snapshot.Sample.shape? v).map make) ∧
    ∀ s, check (make s) = .ok (around (s.check zone).toOption)

theorem checkPoints_drop (samples : List Snapshot.Sample) :
    checkPoints zone .drop samples =
      .ok (samples.filterMap fun s => (s.check zone).toOption) := by
  induction samples with
  | nil => rfl
  | cons s samples ih =>
      unfold checkPoints
      rw [List.filterMap_cons, ih]
      cases s.check zone <;> rfl

theorem checkSamples_drop (s : Snapshot.Samples) :
    checkSamples zone .drop s =
      .ok ⟨s.points.filterMap fun s => (s.check zone).toOption,
        if s.total.isValid then s.total else Traffic.zero⟩ := by
  rw [checkSamples, checkPoints_drop, checkTotal]
  split_ifs <;> rfl

theorem checkSamples_around (before after : List Snapshot.Sample) (total : Traffic Float) :
    ∃ around, Series.Around around ∧ ∀ s, checkSamples zone .drop ⟨before ++ s :: after, total⟩ =
      .ok (around (s.check zone).toOption) := by
  refine ⟨_, .mk (before.filterMap fun s => (s.check zone).toOption)
    (after.filterMap fun s => (s.check zone).toOption)
    (if total.isValid then total else Traffic.zero), fun s => ?_⟩
  rw [checkSamples_drop, List.filterMap_append, List.filterMap_cons, List.append_assoc]
  cases s.check zone <;> rfl

end

section
variable {zone : Calendar.Zone} {α β : Type} {shape : Json → Option α}
  {check reject : α → Except MalformedSample β} {faults : α → List MalformedSample}

/-- The other items of a list are shown before and after the one with the sample. -/
theorem Carries.listOf {f g : Json → Json} {around : Option (Point Float) → β} {v : Json}
    {l : List α} (h : Carries zone shape check g around) (hf : ItemPlace f)
    (hagree : ∀ a, Agree (faults a) (check a) (reject a))
    (hread : listOf? shape (f (g v)) = some l) :
    ∃ before after, Carries zone (listOf? shape) (·.mapM check) (fun w => f (g w))
      fun p => before ++ around p :: after := by
  obtain ⟨make, hmake, hcheck⟩ := h
  obtain ⟨-, before, after, -, -, hitems⟩ := listOf?_item hf hread
  obtain ⟨before', hbefore, -⟩ := Agree.mapM hagree before
  obtain ⟨after', hafter, -⟩ := Agree.mapM hagree after
  refine ⟨before', after', fun s => before ++ make s :: after, fun w => ?_, fun s => ?_⟩
  · rw [hitems, hmake, Option.map_map]
    rfl
  · simp only [List.mapM_append, List.mapM_cons, hbefore, hcheck, hafter]
    rfl

end

namespace Snapshot
variable (zone : Calendar.Zone) {place : Json → Json} {v : Json}

theorem Samples.Place.isNested (h : Samples.Place place) (v : Json) : (place v).IsNested := by
  cases h with
  | mk hf hg => exact hf.isNested _

theorem Service.Place.isNested (h : Service.Place place) (v : Json) : (place v).IsNested := by
  cases h with
  | routes hf hg hh => exact hf.isNested _
  | own hf hg => exact hf.isNested _

theorem Samples.Place.carries {samples : Samples} (h : Samples.Place place)
    (hread : Samples.shape? (place v) = some samples) :
    ∃ around, Series.Around around ∧
      Carries zone Samples.shape? (checkSamples zone .drop) place around := by
  obtain @⟨f, g, hf, hg⟩ := h
  obtain ⟨_, total, hvalues, -, hshape⟩ := Samples.shape?_split hread
  obtain ⟨-, hfields⟩ := structure?_field hf (by decide) hvalues
  have hplace (w : Json) : Samples.shape? (f (g w)) =
      (listOf? Sample.shape? (g w)).map fun ps => { samples with points := ps } := by
    rw [hshape (hfields (g w)), ← emptyable?_item hg]
  obtain ⟨l, hl, -⟩ := Option.map_eq_some_iff.mp ((hplace v).symm.trans hread)
  obtain ⟨s, before, after, hs, rfl, hitems⟩ := listOf?_item hg hl
  obtain ⟨around, haround, hcheck⟩ := checkSamples_around zone before after samples.total
  refine ⟨around, haround, fun s => ⟨before ++ s :: after, samples.total⟩, fun w => ?_, hcheck⟩
  rw [hplace, hitems, Option.map_map]
  rfl

/-- A series that may be missing is not where a sample stands in it. -/
theorem Samples.Place.carries_optional {stats : Option Samples} (h : Samples.Place place)
    (hread : optional? Samples.shape? (some (place v)) = some stats) :
    ∃ around, Series.Around around ∧ Carries zone (fun w => optional? Samples.shape? (some w))
      (checkOptional zone .drop) place fun p => some (around p) := by
  have hshape (w : Json) : optional? Samples.shape? (some (place w)) =
      (Samples.shape? (place w)).map some := (h.isNested w).nullable? Samples.shape?
  rw [hshape] at hread
  obtain ⟨samples, hsamples, -⟩ := Option.map_eq_some_iff.mp hread
  obtain ⟨around, haround, make, hmake, hcheck⟩ := h.carries zone hsamples
  refine ⟨around, haround, fun s => some (make s), fun w => ?_, fun s => ?_⟩
  · simp only [hshape, hmake, Option.map_map]
    rfl
  · rw [checkOptional, hcheck]
    rfl

theorem Route.Place.carries {r : Route} (h : Route.Place place)
    (hread : Route.shape? (place v) = some r) :
    ∃ around, RouteTraffic.Route.Around around ∧
      Carries zone Route.shape? (checkRoute zone .drop) place around := by
  obtain @⟨f, g, hf, hg⟩ := h
  obtain ⟨_, _, _, _, _, _, _, hvalues, -, hshape⟩ := Route.shape?_split hread
  obtain ⟨-, hfields⟩ := structure?_field hf (by decide) hvalues
  have hplace (w : Json) : Route.shape? (f w) =
      (optional? Samples.shape? (some w)).map fun t => { r with stats := t } := hshape (hfields w)
  obtain ⟨stats, hstats, -⟩ := Option.map_eq_some_iff.mp ((hplace (g v)).symm.trans hread)
  obtain ⟨around, haround, make, hmake, hcheck⟩ := hg.carries_optional zone hstats
  refine ⟨_, .mk ⟨r.key, r.kind, r.domain, r.port, r.status.bind RouteStatus.ofName?, r.latency,
    none⟩ haround, fun s => { r with stats := make s }, fun w => ?_, fun s => ?_⟩
  · simp only [hplace, hmake, Option.map_map]
    rfl
  · simp only [checkRoute, hcheck]
    rfl

theorem Service.Place.carries {s : Service} (h : Service.Place place)
    (hread : Service.shape? (place v) = some s) :
    ∃ around, RouteTraffic.Service.Around around ∧
      Carries zone Service.shape? (checkService zone .drop) place around := by
  obtain ⟨_, _, _, _, _, _, hvalues, -, hroutes, hstats, hshape⟩ := Service.shape?_split hread
  cases h with
  | @routes f g k hf hg hk =>
      obtain ⟨-, hfields⟩ := structure?_field hf (by decide) hvalues
      have hplace (w : Json) : Service.shape? (f (g w)) =
          (listOf? Route.shape? (g w)).map fun rs => { s with routes := rs } := by
        rw [hshape (hfields (g w)), hstats, ← emptyable?_item hg]
        exact (Option.map_eq_bind ..).symm
      obtain ⟨routes, hroutes, -⟩ :=
        Option.map_eq_some_iff.mp ((hplace (k v)).symm.trans hread)
      obtain ⟨r, -, -, hr, -, -⟩ := listOf?_item hg hroutes
      obtain ⟨around, haround, hcarries⟩ := hk.carries zone hr
      obtain ⟨before, after, make, hmake, hcheck⟩ :=
        hcarries.listOf hg (checkRoute_agree zone) hroutes
      obtain ⟨stats, hstats, -⟩ := checkOptional_agree zone s.stats
      refine ⟨_, .routes ⟨s.id, s.name, s.enabled, [], s.latency, stats⟩ before after haround,
        fun sample => { s with routes := make sample }, fun w => ?_, fun sample => ?_⟩
      · rw [hplace, hmake, Option.map_map]
        rfl
      · simp only [checkService, hcheck, hstats]
        rfl
  | @own f g hf hg =>
      obtain ⟨-, hfields⟩ := structure?_field hf (by decide) hvalues
      have hplace (w : Json) : Service.shape? (f w) =
          (optional? Samples.shape? (some w)).map fun t => { s with stats := t } := by
        rw [hshape (hfields w), hroutes]
        rfl
      obtain ⟨stats, hstats, -⟩ := Option.map_eq_some_iff.mp ((hplace (g v)).symm.trans hread)
      obtain ⟨around, haround, make, hmake, hcheck⟩ := hg.carries_optional zone hstats
      obtain ⟨routes, hroutes, -⟩ := Agree.mapM (checkRoute_agree zone) s.routes
      refine ⟨_, .own ⟨s.id, s.name, s.enabled, routes, s.latency, none⟩ haround,
        fun sample => { s with stats := make sample }, fun w => ?_, fun sample => ?_⟩
      · simp only [hplace, hmake, Option.map_map]
        rfl
      · simp only [checkService, hcheck, hroutes]
        rfl

theorem Service.isNested_of_shape? {s : Service} (h : Service.shape? v = some s) : v.IsNested := by
  obtain ⟨values, hvalues, -⟩ := Option.bind_eq_some_iff.mp h
  exact isNested_of_structure? hvalues

/-- What comes first in a service that is written as a list is its identifier. -/
theorem Service.id_of_shape? {s : Service} {w : Json} {ws : List Json}
    (h : Service.shape? (.list (w :: ws)) = some s) : optional? text? (some w) = some s.id := by
  have hplace : FieldPlace names "id" fun w => .list ([] ++ w :: ws) := .positional [] ws rfl
  obtain ⟨id, _, _, _, _, _, hvalues, hid, -⟩ := Service.shape?_split h
  obtain ⟨-, hfields⟩ := structure?_field hplace (by decide) hvalues
  obtain rfl : id = some w := (List.cons.inj (Option.some.inj (hvalues.symm.trans (hfields w)))).1
  exact hid

theorem Service.not_isNested_of_shape? {s : Service} {w : Json} {ws : List Json}
    (h : Service.shape? (.list (w :: ws)) = some s) : ¬ w.IsNested := by
  intro hw
  have hid := Service.id_of_shape? h
  rw [hw.text?] at hid
  cases hid

/-- A list of services stays no service, whatever one of its items is replaced by. -/
theorem Service.shape?_item {f g : Json → Json} {services : List Service} (hf : ItemPlace f)
    (hg : Service.Place g) (hread : listOf? Service.shape? (f (g v)) = some services) (w : Json) :
    Service.shape? (f (g w)) = none := by
  refine Option.eq_none_iff_forall_ne_some.mpr fun s hs => ?_
  obtain ⟨before, after⟩ := hf
  cases before with
  | nil => exact not_isNested_of_shape? hs (hg.isNested w)
  | cons b before =>
      obtain ⟨s', -, hs', -, -⟩ := mapM_cons_eq_some.mp hread
      exact not_isNested_of_shape? hs (isNested_of_shape? hs')

theorem Service.listOf?_field {name : String} {f : Json → Json} {s : Service}
    (hf : FieldPlace names name f) (hname : name ≠ "id") (hread : Service.shape? (f v) = some s)
    (w : Json) : listOf? Service.shape? (f w) = none := by
  refine Option.eq_none_iff_forall_ne_some.mpr fun services hservices => ?_
  cases hf with
  | named before after => cases hservices
  | positional before after hbefore =>
      cases before with
      | nil => exact hname (Option.some.inj hbefore).symm
      | cons b before =>
          obtain ⟨s', -, hs', -, -⟩ := mapM_cons_eq_some.mp hservices
          exact not_isNested_of_shape? hread (isNested_of_shape? hs')

theorem Service.Place.listOf?_eq_none {s : Service} (h : Service.Place place)
    (hread : Service.shape? (place v) = some s) (w : Json) :
    listOf? Service.shape? (place w) = none := by
  cases h with
  | routes hf hg hh => exact listOf?_field hf (by decide) hread _
  | own hf hg => exact listOf?_field hf (by decide) hread _

theorem Document.Place.carries {document : Document} (h : document.Place place)
    (hread : Document.shape? (place v) = some document) :
    ∃ around, Dashboard.Around around ∧ Carries zone Document.shape?
      (fun d => Dashboard.ofSnapshot zone .drop d.services) place around := by
  cases h with
  | @many services f g hf hg =>
      have hservices := shape?_eq_many.mp hread
      -- With another item the list might have been a service written as a list; it is none.
      have hshape (w : Json) :
          Document.shape? (f (g w)) = (listOf? Service.shape? (f (g w))).map .many := by
        rw [Document.shape?, Service.shape?_item hf hg hservices]
        cases listOf? Service.shape? (f (g w)) <;> rfl
      obtain ⟨s, -, -, hs, -, -⟩ := listOf?_item hf hservices
      obtain ⟨around, haround, hcarries⟩ := hg.carries zone hs
      obtain ⟨before, after, make, hmake, hcheck⟩ :=
        hcarries.listOf hf (checkService_agree zone) hservices
      refine ⟨_, .mk before after haround, fun sample => .many (make sample), fun w => ?_,
        fun sample => ?_⟩
      · rw [hshape, hmake, Option.map_map]
        rfl
      · simp only [Dashboard.ofSnapshot, Document.services, hcheck]
        rfl
  | one service hf =>
      obtain ⟨-, hservice⟩ := shape?_eq_one.mp hread
      have hshape (w : Json) : Document.shape? (place w) = (Service.shape? (place w)).map .one := by
        rw [Document.shape?, hf.listOf?_eq_none hservice]
        rfl
      obtain ⟨around, haround, make, hmake, hcheck⟩ := hf.carries zone hservice
      refine ⟨_, .mk [] [] haround, fun sample => .one (make sample), fun w => ?_,
        fun sample => ?_⟩
      · rw [hshape, hmake, Option.map_map]
        rfl
      · simp only [Dashboard.ofSnapshot, Document.services, List.mapM_cons, hcheck]
        rfl

end Snapshot

end RouteTraffic
