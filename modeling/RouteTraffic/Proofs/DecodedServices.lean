import RouteTraffic.Proofs.ClockTimes
import RouteTraffic.Proofs.LenientInstants
import RouteTraffic.Proofs.PrintedServices
import RouteTraffic.Proofs.TypedReading

/-! # Services printed and read as services

The JSON text of a service, a route or a series is read back as clocks show the value: with every
field that was absent still absent, in every year of the calendar and to the nanosecond, if its
numbers are whole and not too large (`Service.decode_toJson`). -/

namespace RouteTraffic

open Json Json.Decoder

/-! ### Values from tokens -/

theorem Traffic.reads_toJson (t : Traffic Float) : Reads Traffic.decoder t.toJson t := by
  refine Fills.reads ?_ (by simp) (by simp [Field.optional])
  refine .optional rfl (reads_float t.sent) ?_
  exact .optional rfl (reads_float t.received) .nil

theorem Instant.reads_toText {t : Instant} (h : t.IsOnClock) :
    Reads Instant.decoder (.text t.toText) t := by
  refine (reads_text t.toText).filterMap ?_
  rw [parseLenient?_toText, onClock_of_isOnClock h]

theorem Point.reads_toJson {p : Point Float} (h : p.time.IsOnClock) :
    Reads Point.decoder p.toJson p := by
  refine Fills.reads ?_ (by simp) (by simp [Field.required])
  refine .required rfl (Instant.reads_toText h) ?_
  exact .required rfl p.value.reads_toJson .nil

theorem Series.reads_toJson {s : Series Float} (h : s.EachInstant Instant.IsOnClock) :
    Reads Series.decoder s.toJson s := by
  refine Fills.reads ?_ (by simp) (by simp [Field.optional])
  refine .optional rfl (reads_list fun p hp => Point.reads_toJson (h p hp)) ?_
  exact .optional rfl s.total.reads_toJson .nil

theorem RouteStatus.reads_toJson (s : RouteStatus) : Reads RouteStatus.decoder s.toJson s := by
  intro ts
  cases s <;> rfl

theorem reads_width {α : Type} {toNat : α → ℕ} {size : ℕ} {o : Option α}
    (h : ∀ a, toNat a < size) : ∀ n ∈ o.map toNat, Reads (nat (size - 1)) (Json.ofNat n) n := by
  intro n hn
  obtain ⟨a, -, rfl⟩ := Option.map_eq_some_iff.mp hn
  exact reads_nat (Nat.le_sub_one_of_lt (h a))

theorem map_map_eq {α β : Type} {f : α → β} {g : β → α} (h : ∀ a, g (f a) = a) (o : Option α) :
    (o.map f).map g = o := by
  cases o with
  | none => rfl
  | some a => exact congrArg some (h a)

theorem Route.reads_toJson {r : Route} (h : ∀ s ∈ r.stats, s.EachInstant Instant.IsOnClock) :
    Reads Route.decoder r.toJson r := by
  have hkey : (r.key.map UInt32.toNat).map UInt32.ofNat = r.key :=
    map_map_eq (fun _ => UInt32.ofNat_toNat) r.key
  have hport : (r.port.map UInt16.toNat).map UInt16.ofNat = r.port :=
    map_map_eq (fun _ => UInt16.ofNat_toNat) r.port
  refine FillsPresent.reads ?_ (by simp) (by simp [Field.optional])
  refine .sometimes rfl (reads_width UInt32.toNat_lt) nofun rfl ?_
  refine .sometimes rfl (fun s _ => reads_text s) nofun rfl ?_
  refine .sometimes rfl (fun s _ => reads_text s) nofun rfl ?_
  refine .sometimes rfl (reads_width UInt16.toNat_lt) nofun rfl ?_
  refine .sometimes rfl (fun s _ => s.reads_toJson) nofun rfl ?_
  refine .sometimes rfl (fun x _ => reads_float x) nofun rfl ?_
  refine .sometimes rfl (fun s hs => Series.reads_toJson (h s hs)) (fun _ => nofun) rfl ?_
  rw [hkey, hport]
  exact .nil

theorem Service.reads_toJson {s : Service} (h : s.EachSeries (·.EachInstant Instant.IsOnClock)) :
    Reads Service.decoder s.toJson s := by
  refine FillsPresent.reads ?_ (by simp) (by simp [Field.optional])
  refine .sometimes rfl (fun s _ => reads_text s) nofun rfl ?_
  refine .always rfl (reads_text s.name) ?_
  refine .always rfl (reads_bool s.enabled) ?_
  refine .always rfl (reads_list fun r hr => Route.reads_toJson (h.routes r hr)) ?_
  refine .sometimes rfl (fun x _ => reads_float x) nofun rfl ?_
  refine .sometimes rfl (fun s hs => Series.reads_toJson (h.own s hs)) (fun _ => nofun) rfl ?_
  exact .nil

/-! ### Whole texts -/

/-- Every count is a whole number of at most 49 bits.  The samples may lie anywhere in the calendar,
to the nanosecond and in leap seconds. -/
def Series.IsExact (s : Series Float) : Prop := s.HasCounts (·.Each IsSmallWhole)

/-- The latency is a whole number of at most 49 bits, and the series is exact. -/
structure Route.IsExact (r : Route) : Prop where
  latency : ∀ x ∈ r.latency, IsSmallWhole x
  stats : ∀ s ∈ r.stats, s.IsExact

/-- The latency, the series and the routes are exact. -/
structure Service.IsExact (s : Service) : Prop where
  routes : ∀ r ∈ s.routes, r.IsExact
  latency : ∀ x ∈ s.latency, IsSmallWhole x
  stats : ∀ t ∈ s.stats, t.IsExact

theorem Series.IsExact.survives {s : Series Float} (h : s.IsExact) :
    s.HasCounts (·.Each Survives) :=
  h.imp fun _ hcounts => hcounts.imp fun _ hx => hx.survives

theorem Series.IsExact.legible {s : Series Float} (h : s.IsExact) : Legible Survives 4 s.toJson :=
  Series.legible h.survives

theorem Route.IsExact.legible {r : Route} (h : r.IsExact) : Legible Survives 5 r.toJson :=
  Route.legible (fun x hx => (h.latency x hx).survives) fun s hs => (h.stats s hs).survives

theorem Service.IsExact.legible {s : Service} (h : s.IsExact) : Legible Survives 7 s.toJson := by
  apply Service.legible
  · exact ⟨fun r hr x hx => ((h.routes r hr).latency x hx).survives,
      fun x hx => (h.latency x hx).survives⟩
  · exact ⟨fun r hr t ht => ((h.routes r hr).stats t ht).survives,
      fun t ht => (h.stats t ht).survives⟩

/-- A value that is read as it was written is decoded as what its tokens are read as. -/
theorem decode_toText {α : Type} {d : Decoder α} {v : Json} {a : α} {depth : ℕ}
    (hv : Legible Survives depth v) (hreads : Reads d v a) : decode d v.toText = .ok a := by
  have hread := hreads []
  rw [List.append_nil] at hread
  rw [decode, toText, String.toList_ofList, hv.tokens_render, hv.reread_eq fun _ h => h, hread]
  rfl

theorem Series.decode_onClock {t : Series Float} (h : t.IsExact) :
    decode Series.decoder t.toJson.toText = .ok t.onClock := by
  refine decode_toText h.legible ?_
  rw [← t.toJson_onClock]
  exact reads_toJson t.onClock_isOnClock

theorem Route.decode_onClock {r : Route} (h : r.IsExact) :
    decode Route.decoder r.toJson.toText = .ok r.onClock := by
  refine decode_toText h.legible ?_
  rw [← r.toJson_onClock]
  exact reads_toJson (forall_mem_map_onClock r.stats)

theorem Service.decode_onClock {s : Service} (h : s.IsExact) :
    decode Service.decoder s.toJson.toText = .ok s.onClock := by
  refine decode_toText h.legible ?_
  rw [← s.toJson_onClock]
  exact reads_toJson s.onClock_isOnClock

/-- **Services, routes and series are decoded from their own text as they were, but for leap seconds
inside a minute**: with whatever texts, keys and ports they have, and with no more and no fewer
fields, in years with a sign, to the nanosecond, and with negative zeros.  What is decoded is what
clocks show of them, and that is the same exactly if each leap second ends a minute of UTC. -/
theorem Service.decode_toJson :
    (∀ s : Service, s.IsExact → decode Service.decoder s.toJson.toText = .ok s.onClock ∧
        (s.onClock = s ↔ s.EachSeries (·.EachInstant Instant.IsOnClock))) ∧
      (∀ r : Route, r.IsExact → decode Route.decoder r.toJson.toText = .ok r.onClock ∧
        (r.onClock = r ↔ ∀ t ∈ r.stats, t.EachInstant Instant.IsOnClock)) ∧
      ∀ t : Series Float, t.IsExact → decode Series.decoder t.toJson.toText = .ok t.onClock ∧
        (t.onClock = t ↔ t.EachInstant Instant.IsOnClock) :=
  ⟨fun _ hs => ⟨decode_onClock hs, onClock_eq_self_iff⟩,
    fun _ hr => ⟨Route.decode_onClock hr, Route.onClock_eq_self_iff⟩,
    fun _ ht => ⟨Series.decode_onClock ht, Series.onClock_eq_self_iff⟩⟩

/-- A nanosecond within the leap second before the year 0, a year of five digits, a count below
zero, a negative zero, and texts with a quote, a line feed and a control character. -/
theorem Service.decode_toJson_leapSecond :
    let leap : Instant := ⟨-62167219201, 1000000001, by decide, by decide⟩
    let late : Instant := ⟨400000000000, 123456000, by decide, by decide⟩
    let series : Series Float := ⟨[⟨leap, ⟨1024.0, -0.0⟩⟩, ⟨late, ⟨-12.0, 3.0⟩⟩], ⟨1024.0, 3.0⟩⟩
    let route : Route :=
      { kind := some "t\ncp", status := some .stopping, latency := some (-12.0),
        stats := some series }
    let service : Service := { name := "a\"\x07", routes := [{}, route] }
    service.IsExact ∧ decode Service.decoder service.toJson.toText = .ok service ∧
      decode Route.decoder route.toJson.toText = .ok route ∧
      decode Series.decoder series.toJson.toText = .ok series := by
  intro leap late series route service
  have hnone {α : Type} {P : α → Prop} : ∀ a ∈ (none : Option α), P a := fun _ h => nomatch h
  have hsent : IsSmallWhole 1024.0 := ⟨1024, by decide, ⟨⟨2 ^ 52, -42⟩, by rfl, by rfl⟩⟩
  have hthree : IsSmallWhole 3.0 := ⟨3, by decide, ⟨⟨3 * 2 ^ 51, -51⟩, by rfl, by rfl⟩⟩
  have hbelow : IsSmallWhole (-12.0) := ⟨12, by decide, ⟨⟨12 * 2 ^ 49, -49⟩, by rfl, by rfl⟩⟩
  have hzero : IsSmallWhole (-0.0) := ⟨0, by decide, Decimal.isWhole_zeros.2⟩
  have hseries : series.IsExact := by
    refine ⟨⟨hsent, hthree⟩, List.forall_mem_cons.mpr ⟨⟨hsent, hzero⟩, ?_⟩⟩
    exact List.forall_mem_singleton.mpr ⟨hbelow, hthree⟩
  have hroute : route.IsExact :=
    ⟨fun x hx => Option.some.inj hx ▸ hbelow, fun s hs => Option.some.inj hs ▸ hseries⟩
  have hservice : service.IsExact := by
    refine ⟨List.forall_mem_cons.mpr ⟨⟨hnone, hnone⟩, ?_⟩, hnone, hnone⟩
    exact List.forall_mem_singleton.mpr hroute
  have hclock : series.EachInstant Instant.IsOnClock := by
    refine List.forall_mem_cons.mpr ⟨Or.inr (by decide), ?_⟩
    exact List.forall_mem_singleton.mpr (Or.inl (by decide))
  have hroutes : ∀ t ∈ route.stats, t.EachInstant Instant.IsOnClock :=
    fun t ht => Option.some.inj ht ▸ hclock
  have hall : service.EachSeries (·.EachInstant Instant.IsOnClock) :=
    ⟨List.forall_mem_cons.mpr ⟨hnone, List.forall_mem_singleton.mpr hroutes⟩, hnone⟩
  obtain ⟨hreadService, hsameService⟩ := Service.decode_toJson.1 service hservice
  obtain ⟨hreadRoute, hsameRoute⟩ := Service.decode_toJson.2.1 route hroute
  obtain ⟨hreadSeries, hsameSeries⟩ := Service.decode_toJson.2.2 series hseries
  rw [hsameService.mpr hall] at hreadService
  rw [hsameRoute.mpr hroutes] at hreadRoute
  rw [hsameSeries.mpr hclock] at hreadSeries
  exact ⟨hservice, hreadService, hreadRoute, hreadSeries⟩

/-- Two samples, the second of them in an ordinary second, are decoded as two at one instant. -/
theorem Service.decode_toJson_insideMinute :
    let leap : Instant := ⟨30, 1500000000, by decide, by decide⟩
    let next : Instant := ⟨31, 500000000, by decide, by decide⟩
    let series (t : Instant) : Series Float :=
      ⟨[⟨t, Traffic.zero⟩, ⟨next, Traffic.zero⟩], Traffic.zero⟩
    let route (t : Instant) : Route := { stats := some (series t) }
    let service (t : Instant) : Service := { routes := [route t] }
    (series leap ≠ series next ∧ route leap ≠ route next ∧ service leap ≠ service next) ∧
      (service leap).IsExact ∧
      decode Service.decoder (service leap).toJson.toText = .ok (service next) ∧
      decode Route.decoder (route leap).toJson.toText = .ok (route next) ∧
      decode Series.decoder (series leap).toJson.toText = .ok (series next) := by
  intro leap next series route service
  have hnone {α : Type} {P : α → Prop} : ∀ a ∈ (none : Option α), P a := fun _ h => nomatch h
  have hzero : IsSmallWhole 0.0 := ⟨0, by decide, Decimal.isWhole_zeros.1⟩
  have hseries : (series leap).IsExact := by
    refine ⟨⟨hzero, hzero⟩, List.forall_mem_cons.mpr ⟨⟨hzero, hzero⟩, ?_⟩⟩
    exact List.forall_mem_singleton.mpr ⟨hzero, hzero⟩
  have hroute : (route leap).IsExact := ⟨hnone, fun s hs => Option.some.inj hs ▸ hseries⟩
  have hservice : (service leap).IsExact :=
    ⟨List.forall_mem_singleton.mpr hroute, hnone, hnone⟩
  have hleap : leap.onClock = next := by decide
  have hnext : next.onClock = next := by decide
  have hshown : (series leap).onClock = series next := by
    show Series.mk [⟨leap.onClock, _⟩, ⟨next.onClock, _⟩] _ = _
    rw [hleap, hnext]
  have hshownRoute : (route leap).onClock = route next :=
    congrArg (fun t => ({ stats := some t } : Route)) hshown
  have hshownService : (service leap).onClock = service next :=
    congrArg (fun r => ({ routes := [r] } : Service)) hshownRoute
  have hne : series leap ≠ series next := fun h =>
    absurd (congrArg (fun t => t.points.map Point.time) h) (by decide)
  have hneRoute : route leap ≠ route next := fun h =>
    hne (Option.some.inj (congrArg Route.stats h))
  have hneService : service leap ≠ service next := fun h =>
    hneRoute (List.cons.inj (congrArg Service.routes h)).1
  refine ⟨⟨hne, hneRoute, hneService⟩, hservice, ?_, ?_, ?_⟩
  · rw [Service.decode_onClock hservice, hshownService]
  · rw [Route.decode_onClock hroute, hshownRoute]
  · rw [Series.decode_onClock hseries, hshown]

end RouteTraffic
