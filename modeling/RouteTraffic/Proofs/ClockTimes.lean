import RouteTraffic.Proofs.InstantText
import RouteTraffic.Proofs.Reports
import RouteTraffic.Route.Json

/-! # Services as clocks show them

Every sample of a service at the instant that a clock shows (`Service.onClock`).  Only samples in a
leap second inside a minute are moved by that (`Service.onClock_eq_self_iff`), and the printed forms
are the same (`Service.toJson_onClock`). -/

namespace RouteTraffic

/-- The point at the instant that a clock shows. -/
def Point.onClock (p : Point Float) : Point Float := { p with time := p.time.onClock }

/-- The series with its points at the instants that a clock shows. -/
def Series.onClock (s : Series Float) : Series Float := { s with points := s.points.map Point.onClock }

/-- The route with its samples at the instants that a clock shows. -/
def Route.onClock (r : Route) : Route := { r with stats := r.stats.map Series.onClock }

/-- The service with its samples at the instants that a clock shows. -/
def Service.onClock (s : Service) : Service :=
  { s with routes := s.routes.map Route.onClock, stats := s.stats.map Series.onClock }

/-! ### What is moved -/

theorem listMap_eq_self_iff {α : Type} {f : α → α} {l : List α} :
    l.map f = l ↔ ∀ a ∈ l, f a = a := by
  rw [← List.map_inj_left, List.map_id']

theorem optionMap_eq_self_iff {α : Type} {f : α → α} {o : Option α} :
    o.map f = o ↔ ∀ a ∈ o, f a = a := by
  cases o <;> simp

theorem Series.onClock_eq_self_iff {s : Series Float} :
    s.onClock = s ↔ s.EachInstant Instant.IsOnClock := by
  have hpoint (p : Point Float) : p.onClock = p ↔ p.time.IsOnClock := by
    rw [← Instant.onClock_eq_self_iff, Point.onClock]
    exact ⟨congrArg Point.time, fun h => by rw [h]⟩
  have hpoints : s.onClock = s ↔ s.points.map Point.onClock = s.points :=
    ⟨congrArg Series.points, fun h => by rw [onClock, h]⟩
  rw [hpoints, listMap_eq_self_iff]
  exact forall₂_congr fun p _ => hpoint p

theorem Route.onClock_eq_self_iff {r : Route} :
    r.onClock = r ↔ ∀ s ∈ r.stats, s.EachInstant Instant.IsOnClock := by
  have hstats : r.onClock = r ↔ r.stats.map Series.onClock = r.stats :=
    ⟨congrArg Route.stats, fun h => by rw [onClock, h]⟩
  rw [hstats, optionMap_eq_self_iff]
  exact forall₂_congr fun s _ => Series.onClock_eq_self_iff

/-- A service stays as it is exactly if its leap seconds are all at the end of a minute. -/
theorem Service.onClock_eq_self_iff {s : Service} :
    s.onClock = s ↔ s.EachSeries (·.EachInstant Instant.IsOnClock) := by
  have hparts : s.onClock = s ↔
      s.routes.map Route.onClock = s.routes ∧ s.stats.map Series.onClock = s.stats :=
    ⟨fun h => ⟨congrArg Service.routes h, congrArg Service.stats h⟩,
      fun h => by rw [onClock, h.1, h.2]⟩
  rw [hparts, listMap_eq_self_iff, optionMap_eq_self_iff]
  have hroutes := forall₂_congr fun r (_ : r ∈ s.routes) => Route.onClock_eq_self_iff (r := r)
  have hown := forall₂_congr fun t (_ : t ∈ s.stats) => Series.onClock_eq_self_iff (s := t)
  rw [hroutes, hown]
  exact ⟨fun h => ⟨h.1, h.2⟩, fun h => ⟨h.routes, h.own⟩⟩

/-! ### What is shown -/

theorem Series.onClock_isOnClock (s : Series Float) : s.onClock.EachInstant Instant.IsOnClock :=
  List.forall_mem_map.mpr fun p _ => p.time.onClock_isOnClock

theorem forall_mem_map_onClock (o : Option (Series Float)) :
    ∀ t ∈ o.map Series.onClock, t.EachInstant Instant.IsOnClock := by
  intro t ht
  obtain ⟨s, -, rfl⟩ := Option.map_eq_some_iff.mp ht
  exact s.onClock_isOnClock

theorem Service.onClock_isOnClock (s : Service) :
    s.onClock.EachSeries (·.EachInstant Instant.IsOnClock) := by
  refine ⟨fun r hr => ?_, forall_mem_map_onClock s.stats⟩
  obtain ⟨r', -, rfl⟩ := List.mem_map.mp hr
  exact forall_mem_map_onClock r'.stats

/-! ### Printed forms -/

theorem Point.toJson_onClock (p : Point Float) : p.onClock.toJson = p.toJson := by
  rw [toJson, toJson, onClock, Instant.toText_onClock]

theorem Series.toJson_onClock (s : Series Float) : s.onClock.toJson = s.toJson := by
  rw [toJson, toJson, onClock, List.map_map,
    funext (f := Point.toJson ∘ Point.onClock) Point.toJson_onClock]

theorem map_toJson_onClock (o : Option (Series Float)) :
    (o.map Series.onClock).map Series.toJson = o.map Series.toJson := by
  rw [Option.map_map, funext (f := Series.toJson ∘ Series.onClock) Series.toJson_onClock]

theorem Route.toJson_onClock (r : Route) : r.onClock.toJson = r.toJson := by
  simp only [toJson, onClock, map_toJson_onClock]

theorem Service.toJson_onClock (s : Service) : s.onClock.toJson = s.toJson := by
  have hroutes : (s.routes.map Route.onClock).map Route.toJson = s.routes.map Route.toJson := by
    rw [List.map_map, funext (f := Route.toJson ∘ Route.onClock) Route.toJson_onClock]
  simp only [toJson, onClock, map_toJson_onClock, hroutes]

end RouteTraffic
