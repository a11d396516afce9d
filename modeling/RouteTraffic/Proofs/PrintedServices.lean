import RouteTraffic.Route.Json
import RouteTraffic.Proofs.JsonRoundTrip
import RouteTraffic.Proofs.Reports

/-! # Services in print

The JSON form of every service is legible (`Service.legible`).  Where it is printed another service
may be read, one with the same instants but with other doubles: `Service.reread`.  It is the same one
where all doubles survive, as whole numbers of at most 49 bits do (`Service.reread_eq`). -/

namespace RouteTraffic

/-! ### Legible forms -/

namespace Json

section
variable {P : Float → Prop} {d e : ℕ}

theorem Legible.mono {v : Json} (h : Legible P d v) (hde : d ≤ e) : Legible P e v := by
  induction h generalizing e with
  | null => exact .null
  | bool b => exact .bool b
  | number hn => exact .number hn
  | text s => exact .text s
  | list _ ih =>
      obtain ⟨e, rfl⟩ : ∃ f, e = f + 1 := ⟨e - 1, by omega⟩
      exact .list fun v hv => ih v hv (by omega)
  | record _ ih =>
      obtain ⟨e, rfl⟩ : ∃ f, e = f + 1 := ⟨e - 1, by omega⟩
      exact .record fun f hf => ih f hf (by omega)

theorem legible_present {fields : List (String × Option Json)}
    (h : ∀ f ∈ fields, ∀ v ∈ f.2, Legible P d v) : Legible P (d + 1) (present fields) := by
  refine .record fun ⟨k, v⟩ hmem => ?_
  obtain ⟨⟨k', v'⟩, hfield, hkv⟩ := List.mem_filterMap.mp hmem
  obtain ⟨w, hw, hk⟩ := Option.map_eq_some_iff.mp hkv
  obtain rfl : w = v := (Prod.mk.inj hk).2
  exact h _ hfield w hw

theorem legible_map {α : Type} {toJson : α → Json} {o : Option α}
    (h : ∀ a ∈ o, Legible P d (toJson a)) : ∀ v ∈ o.map toJson, Legible P d v := by
  intro v hv
  obtain ⟨a, ha, rfl⟩ := Option.map_eq_some_iff.mp hv
  exact h a ha

theorem legible_listMap {α : Type} {toJson : α → Json} {l : List α}
    (h : ∀ a ∈ l, Legible P d (toJson a)) : Legible P (d + 1) (.list (l.map toJson)) := by
  refine .list fun v hv => ?_
  obtain ⟨a, ha, rfl⟩ := List.mem_map.mp hv
  exact h a ha

theorem legible_latency {o : Option Float} (h : ∀ x ∈ o, P x) :
    ∀ v ∈ o.map ofFloat, Legible P d v :=
  legible_map fun x hx => .number (h x hx)

theorem legible_text (o : Option String) : ∀ v ∈ o.map .text, Legible P d v :=
  legible_map fun s _ => .text s

theorem legible_nat {α : Type} {toNat : α → ℕ} (o : Option α) (h : ∀ a, toNat a < 2 ^ 64) :
    ∀ v ∈ optionalNat (o.map toNat), Legible P d v := by
  refine legible_map fun n hn => .number ?_
  obtain ⟨a, -, rfl⟩ := Option.map_eq_some_iff.mp hn
  have := h a
  exact ⟨by omega, by rw [Text.maxUnsigned64]; omega⟩

end

end Json

open Json

section
variable {P : Float → Prop}

theorem Traffic.legible {t : Traffic Float} (h : t.Each P) : Legible P 1 t.toJson := by
  refine .record (List.forall_mem_cons.mpr ⟨.number h.1, ?_⟩)
  exact List.forall_mem_cons.mpr ⟨.number h.2, List.forall_mem_nil _⟩

theorem Point.legible {p : Point Float} (h : p.value.Each P) : Legible P 2 p.toJson := by
  refine .record (List.forall_mem_cons.mpr ⟨.text _, ?_⟩)
  exact List.forall_mem_cons.mpr ⟨Traffic.legible h, List.forall_mem_nil _⟩

theorem Series.legible {s : Series Float} (h : s.HasCounts (·.Each P)) : Legible P 4 s.toJson := by
  have hpoints := legible_listMap fun p hp => Point.legible (h.2 p hp)
  refine .record (List.forall_mem_cons.mpr ⟨hpoints, ?_⟩)
  exact List.forall_mem_cons.mpr ⟨(Traffic.legible h.1).mono (by decide), List.forall_mem_nil _⟩

theorem Route.legible {r : Route} (hlatency : ∀ x ∈ r.latency, P x)
    (hstats : ∀ s ∈ r.stats, s.HasCounts (·.Each P)) : Legible P 5 r.toJson := by
  refine legible_present ?_
  simp only [List.forall_mem_cons]
  refine ⟨legible_nat r.key fun key => Nat.lt_trans key.toNat_lt (by decide), legible_text r.kind,
    legible_text r.domain, legible_nat r.port fun port => Nat.lt_trans port.toNat_lt (by decide),
    legible_map fun s _ => .text s.label, legible_latency hlatency,
    legible_map fun s hs => Series.legible (hstats s hs), List.forall_mem_nil _⟩

theorem Service.legible {s : Service} (hlatency : s.EachLatency P)
    (hseries : s.EachSeries (·.HasCounts (·.Each P))) : Legible P 7 s.toJson := by
  have hroutes := legible_listMap fun r hr =>
    Route.legible (hlatency.routes r hr) (hseries.routes r hr)
  refine legible_present ?_
  simp only [List.forall_mem_cons]
  refine ⟨legible_text s.id, fun v hv => Option.some.inj hv ▸ .text s.name,
    fun v hv => Option.some.inj hv ▸ .bool s.enabled, fun v hv => Option.some.inj hv ▸ hroutes,
    legible_latency hlatency.own,
    legible_map fun t ht => (Series.legible (hseries.own t ht)).mono (by decide),
    List.forall_mem_nil _⟩

end

/-! ### What is read -/

/-- The counts that are read where these are written. -/
def Traffic.reread (t : Traffic Float) : Traffic Float :=
  ⟨rereadDouble t.sent, rereadDouble t.received⟩

/-- The point that is read where this one is written, at the same instant. -/
def Point.reread (p : Point Float) : Point Float := ⟨p.time, p.value.reread⟩

/-- The series that is read where this one is written. -/
def Series.reread (s : Series Float) : Series Float := ⟨s.points.map Point.reread, s.total.reread⟩

/-- The latency that is read where this one is written; one that is no finite number is absent. -/
def rereadLatency (o : Option Float) : Option Float := (o.filter (·.isFinite)).map rereadDouble

/-- The route that is read where this one is written. -/
def Route.reread (r : Route) : Route :=
  { r with latency := rereadLatency r.latency, stats := r.stats.map Series.reread }

/-- The service that is read where this one is written. -/
def Service.reread (s : Service) : Service :=
  { s with routes := s.routes.map Route.reread, latency := rereadLatency s.latency,
           stats := s.stats.map Series.reread }

/-- The double is read as it was written. -/
def Json.Survives (x : Float) : Prop := x.isFinite = true ∧ rereadDouble x = x

theorem Traffic.reread_eq {t : Traffic Float} (h : t.Each Survives) : t.reread = t := by
  rw [reread, h.1.2, h.2.2]

theorem Series.reread_eq {s : Series Float} (h : s.HasCounts (·.Each Survives)) : s.reread = s := by
  have hpoints : ∀ p ∈ s.points, p.reread = p := fun p hp => by
    rw [Point.reread, Traffic.reread_eq (h.2 p hp)]
  rw [reread, List.map_congr_left hpoints, List.map_id', Traffic.reread_eq h.1]

theorem rereadLatency_eq {o : Option Float} (h : ∀ x ∈ o, Survives x) : rereadLatency o = o := by
  cases o with
  | none => rfl
  | some x =>
      obtain ⟨hfinite, hx⟩ := h x rfl
      simp [rereadLatency, hfinite, hx]

theorem rereadStats_eq {o : Option (Series Float)} (h : ∀ s ∈ o, s.HasCounts (·.Each Survives)) :
    o.map Series.reread = o := by
  cases o with
  | none => rfl
  | some s => exact congrArg some (Series.reread_eq (h s rfl))

theorem Service.reread_eq {s : Service} (hlatency : s.EachLatency Survives)
    (hseries : s.EachSeries (·.HasCounts (·.Each Survives))) : s.reread = s := by
  have hroutes : ∀ r ∈ s.routes, r.reread = r := fun r hr => by
    rw [Route.reread, rereadLatency_eq (hlatency.routes r hr),
      rereadStats_eq (hseries.routes r hr)]
  rw [reread, List.map_congr_left hroutes, List.map_id', rereadLatency_eq hlatency.own,
    rereadStats_eq hseries.own]

/-- A whole number of at most 49 bits, with a sign. -/
def Json.IsSmallWhole (x : Float) : Prop := ∃ n < 2 ^ 49, Decimal.IsWhole x n

theorem Json.IsSmallWhole.survives {x : Float} (h : IsSmallWhole x) : Survives x := by
  obtain ⟨n, hlt, hx⟩ := h
  have hfinite : x.isFinite = true := by
    obtain ⟨d, hd, -⟩ := hx
    exact Decimal.isFinite_iff_magnitude.mpr ⟨_, hd⟩
  exact ⟨hfinite, rereadDouble_whole hx hlt⟩

end RouteTraffic
