import RouteTraffic.Route

/-! # What routes and services report

Properties of all the counts, instants, series and latencies in a report. -/

namespace RouteTraffic

/-! ### Counts -/

/-- Both channels have the property. -/
def Traffic.Each (P : Float → Prop) (t : Traffic Float) : Prop := P t.sent ∧ P t.received

instance (P : Float → Prop) [DecidablePred P] : DecidablePred (Traffic.Each P) :=
  fun t => inferInstanceAs (Decidable (P t.sent ∧ P t.received))

theorem Traffic.Each.imp {P Q : Float → Prop} {t : Traffic Float} (h : t.Each P)
    (hPQ : ∀ x, P x → Q x) : t.Each Q :=
  ⟨hPQ _ h.1, hPQ _ h.2⟩

theorem Traffic.isValid_iff {t : Traffic Float} :
    t.isValid = true ↔ t.Each fun x => isValid.ok x = true := by
  rw [isValid, Bool.and_eq_true]
  rfl

/-- The total and every sample have the property. -/
def Series.HasCounts (P : Traffic Float → Prop) (s : Series Float) : Prop :=
  P s.total ∧ ∀ p ∈ s.points, P p.value

theorem Series.HasCounts.imp {P Q : Traffic Float → Prop} {s : Series Float} (h : s.HasCounts P)
    (hPQ : ∀ t, P t → Q t) : s.HasCounts Q :=
  ⟨hPQ _ h.1, fun p hp => hPQ _ (h.2 p hp)⟩

/-- Every total and every sample that a route reports has the property. -/
def Route.HasCounts (P : Traffic Float → Prop) (r : Route) : Prop :=
  ∀ s ∈ r.stats, P s.total ∧ ∀ p ∈ s.points, P p.value

instance (P : Traffic Float → Prop) [DecidablePred P] : DecidablePred (Route.HasCounts P) :=
  fun r => inferInstanceAs (Decidable (∀ s ∈ r.stats, P s.total ∧ ∀ p ∈ s.points, P p.value))

theorem Route.HasCounts.imp {P Q : Traffic Float → Prop} {r : Route} (h : r.HasCounts P)
    (hPQ : ∀ t, P t → Q t) : r.HasCounts Q :=
  fun s hs => ⟨hPQ _ (h s hs).1, fun p hp => hPQ _ ((h s hs).2 p hp)⟩

theorem Route.HasCounts.and {P Q : Traffic Float → Prop} {r : Route} (h : r.HasCounts P)
    (h' : r.HasCounts Q) : r.HasCounts fun t => P t ∧ Q t :=
  fun s hs => ⟨⟨(h s hs).1, (h' s hs).1⟩, fun p hp => ⟨(h s hs).2 p hp, (h' s hs).2 p hp⟩⟩

/-! ### Instants -/

/-- Every sample was taken at an instant with the property. -/
def Series.EachInstant (P : Instant → Prop) (s : Series Float) : Prop := ∀ p ∈ s.points, P p.time

/-! ### Services -/

/-- Every series that a service or one of its routes reports has the property. -/
structure Service.EachSeries (P : Series Float → Prop) (s : Service) : Prop where
  routes : ∀ r ∈ s.routes, ∀ t ∈ r.stats, P t
  own : ∀ t ∈ s.stats, P t

theorem Service.EachSeries.imp {P Q : Series Float → Prop} {s : Service} (h : s.EachSeries P)
    (hPQ : ∀ t, P t → Q t) : s.EachSeries Q :=
  ⟨fun r hr t ht => hPQ t (h.routes r hr t ht), fun t ht => hPQ t (h.own t ht)⟩

theorem Service.EachSeries.and {P Q : Series Float → Prop} {s : Service} (h : s.EachSeries P)
    (h' : s.EachSeries Q) : s.EachSeries fun t => P t ∧ Q t :=
  ⟨fun r hr t ht => ⟨h.routes r hr t ht, h'.routes r hr t ht⟩,
    fun t ht => ⟨h.own t ht, h'.own t ht⟩⟩

/-- Every latency that a service or one of its routes reports has the property. -/
structure Service.EachLatency (P : Float → Prop) (s : Service) : Prop where
  routes : ∀ r ∈ s.routes, ∀ x ∈ r.latency, P x
  own : ∀ x ∈ s.latency, P x

end RouteTraffic
