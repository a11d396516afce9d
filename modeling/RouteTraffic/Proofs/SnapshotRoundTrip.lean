import RouteTraffic.Proofs.CheckedSnapshot
import RouteTraffic.Proofs.ClockTimes
import RouteTraffic.Proofs.JsonRoundTrip
import RouteTraffic.Proofs.SnapshotShape

/-! # Services printed and loaded again

Services whose instants lie in the years of four digits and whose numbers are whole and not too
large are accepted in their JSON form under the strict policy, in every zone.  A dashboard shows
them as clocks show them, a list of them in one and one of them alone as a list of one
(`Dashboard.parse_toJson`). -/

namespace RouteTraffic

/-! ### What survives -/

/-- A whole number of at most 49 bits that is not below zero; zero may have a sign. -/
def Traffic.IsSmallCount (x : Float) : Prop :=
  ∃ n < 2 ^ 49, Decimal.IsWhole x n ∧ (Decimal.negative x = true → n = 0)

/-- Both counts are whole numbers of at most 49 bits. -/
structure Traffic.IsPortable (t : Traffic Float) : Prop where
  sent : IsSmallCount t.sent
  received : IsSmallCount t.received

/-- The instant has whole milliseconds in a year of four digits, and the counts are portable. -/
structure Point.IsPortable (p : Point Float) : Prop where
  millis : p.time.IsWholeMillis
  year : p.time.HasPlainYear
  value : p.value.IsPortable

/-- The points and the total are portable. -/
structure Series.IsPortable (s : Series Float) : Prop where
  points : ∀ p ∈ s.points, p.IsPortable
  total : s.total.IsPortable

/-- The latency is a whole number of at most 49 bits, and the series is portable. -/
structure Route.IsPortable (r : Route) : Prop where
  latency : ∀ x ∈ r.latency, Json.IsSmallWhole x
  stats : ∀ s ∈ r.stats, s.IsPortable

/-- The latency, the series and the routes are portable. -/
structure Service.IsPortable (s : Service) : Prop where
  routes : ∀ r ∈ s.routes, r.IsPortable
  latency : ∀ x ∈ s.latency, Json.IsSmallWhole x
  stats : ∀ t ∈ s.stats, t.IsPortable

open Json

section
variable {s : Service} (h : s.IsPortable)
include h

theorem Service.IsPortable.latency_survives : s.EachLatency Survives :=
  ⟨fun r hr x hx => ((h.routes r hr).latency x hx).survives, fun x hx => (h.latency x hx).survives⟩

theorem Service.IsPortable.series : s.EachSeries Series.IsPortable :=
  ⟨fun r hr => (h.routes r hr).stats, h.stats⟩

end

/-! ### Checks that are passed -/

theorem Traffic.IsSmallCount.ok {x : Float} (h : IsSmallCount x) : isValid.ok x = true := by
  obtain ⟨n, hlt, hx, hsign⟩ := h
  rw [hx.eq_nearest (Nat.lt_trans hlt (by decide))]
  rcases Nat.eq_zero_or_pos n with rfl | hn
  · cases Decimal.negative x <;> rfl
  · have hpositive : Decimal.negative x = false :=
      Bool.eq_false_iff.mpr fun hneg => Nat.ne_of_gt hn (hsign hneg)
    have hunpack := Decimal.nearest_unpack false (Nat.lt_trans hlt (by decide)) hn
    rw [hpositive, isValid.ok, Bool.and_eq_true, decide_eq_true_eq]
    constructor
    · show (Decimal.nearest false n 1).toModel.unpack.isFinite = true
      rw [hunpack]
      rfl
    · have hle : (0.0 : Float).toModel ≤ (Decimal.nearest false n 1).toModel := by
        show Float.Model.UnpackedFloat.le (0.0 : Float).toModel.unpack
          (Decimal.nearest false n 1).toModel.unpack = true
        rw [hunpack]
        rfl
      exact decide_eq_true hle

theorem Traffic.IsSmallCount.survives {x : Float} (h : IsSmallCount x) : Survives x := by
  obtain ⟨n, hlt, hx, -⟩ := h
  exact IsSmallWhole.survives ⟨n, hlt, hx⟩

theorem Series.IsPortable.hasCounts {P : Float → Prop} {s : Series Float} (h : s.IsPortable)
    (hP : ∀ x, Traffic.IsSmallCount x → P x) : s.HasCounts (·.Each P) :=
  ⟨⟨hP _ h.total.sent, hP _ h.total.received⟩,
    fun p hp => ⟨hP _ (h.points p hp).value.sent, hP _ (h.points p hp).value.received⟩⟩

/-- The instant has whole milliseconds in a year of four digits, and the counts are valid. -/
structure Point.IsSound (p : Point Float) : Prop where
  millis : p.time.IsWholeMillis
  year : p.time.HasPlainYear
  valid : p.value.isValid = true

/-- The points are sound, and the total is valid. -/
structure Series.IsSound (s : Series Float) : Prop where
  points : ∀ p ∈ s.points, p.IsSound
  total : s.total.isValid = true

theorem Series.IsPortable.isSound {s : Series Float} (h : s.IsPortable) : s.IsSound := by
  have hcounts := h.hasCounts fun _ hx => hx.ok
  exact ⟨fun p hp => ⟨(h.points p hp).millis, (h.points p hp).year,
    Traffic.isValid_iff.mpr (hcounts.2 p hp)⟩, Traffic.isValid_iff.mpr hcounts.1⟩

section
variable (zone : Calendar.Zone)

theorem Point.IsSound.check_wire {p : Point Float} (h : p.IsSound) :
    p.wire.check zone = .ok p.onClock := by
  have htime : p.wire.timestamp.resolve zone = .ok p.time.onClock := by
    show parseTimestamp zone p.time.toText = _
    rw [parseTimestamp, Instant.parse_toText zone h.year,
      Instant.truncateToMillis_of_wholeMillis (Instant.onClock_wholeMillis h.millis)]
  have hvalid : p.wire.value.isValid = true := h.valid
  rw [Snapshot.Sample.check, htime]
  exact if_pos hvalid

theorem checkPoints_wire {points : List (Point Float)} (h : ∀ p ∈ points, p.IsSound) :
    checkPoints zone .reject (points.map Point.wire) = .ok (points.map Point.onClock) := by
  induction points with
  | nil => rfl
  | cons p points ih =>
      have hrest := ih fun q hq => h q (List.mem_cons_of_mem p hq)
      simp only [List.map_cons, checkPoints, (h p List.mem_cons_self).check_wire zone, hrest]
      rfl

theorem Series.IsSound.checkSamples_wire {s : Series Float} (h : s.IsSound) :
    checkSamples zone .reject s.wire = .ok s.onClock := by
  have htotal : checkTotal s.wire.total = .ok s.total := if_pos h.total
  rw [checkSamples, htotal]
  show (checkPoints zone .reject (s.points.map Point.wire)).bind _ = _
  rw [checkPoints_wire zone h.points]
  rfl

theorem checkOptional_wire {o : Option (Series Float)} (h : ∀ s ∈ o, s.IsSound) :
    checkOptional zone .reject (o.map Series.wire) = .ok (o.map Series.onClock) := by
  cases o with
  | none => rfl
  | some s =>
      show (checkSamples zone .reject s.wire).map some = _
      rw [(h s rfl).checkSamples_wire zone]
      rfl

theorem RouteStatus.ofName?_label (s : RouteStatus) : ofName? s.label = some s := by
  cases s <;> rfl

theorem Route.check_wire {r : Route} (h : ∀ s ∈ r.stats, s.IsSound) :
    checkRoute zone .reject r.wire = .ok r.onClock := by
  have hstatus : (r.status.map RouteStatus.label).bind RouteStatus.ofName? = r.status := by
    cases hs : r.status with
    | none => rfl
    | some s => exact s.ofName?_label
  have hstats := checkOptional_wire zone h
  rw [checkRoute]
  simp only [Route.wire, hstats, hstatus]
  rfl

theorem mapM_wire {α β : Type} {f : β → Except MalformedSample α} {wire : α → β} {shown : α → α}
    {l : List α} (h : ∀ a ∈ l, f (wire a) = .ok (shown a)) :
    (l.map wire).mapM f = .ok (l.map shown) := by
  induction l with
  | nil => rfl
  | cons a l ih =>
      rw [List.map_cons, List.mapM_cons, h a List.mem_cons_self,
        ih fun b hb => h b (List.mem_cons_of_mem a hb)]
      rfl

theorem Service.check_wire {s : Service} (h : s.EachSeries Series.IsSound) :
    checkService zone .reject s.wire = .ok s.onClock := by
  have hroutes := mapM_wire fun r hr => Route.check_wire zone (h.routes r hr)
  have hstats := checkOptional_wire zone h.own
  rw [checkService]
  simp only [Service.wire, hroutes, hstats]
  rfl

namespace Dashboard

theorem ofSnapshot_wire {services : List Service}
    (h : ∀ s ∈ services, s.EachSeries Series.IsSound) :
    ofSnapshot zone .reject (services.map Service.wire) = .ok ⟨services.map Service.onClock⟩ := by
  rw [ofSnapshot, mapM_wire fun s hs => Service.check_wire zone (h s hs)]
  rfl

/-- A legible value is loaded as the document that is read. -/
theorem parse_toText (policy : SamplePolicy) {P : Float → Prop} {v : Json} {d : ℕ}
    (hv : Legible P d v) (hd : d < depthLimit) {document : Snapshot.Document}
    (hshape : Snapshot.Document.shape? v.reread = some document) :
    parse zone policy v.toText = (ofSnapshot zone policy document.services).mapError .sample := by
  have hread : Snapshot.Document.read v.toText = .ok document := by
    rw [Snapshot.Document.read, hv.value_tokens hd]
    simp only [bind, Except.bind, hshape]
    rfl
  rw [parse, hread]
  dsimp only
  cases ofSnapshot zone policy document.services <;> rfl

end Dashboard

end

namespace Dashboard

section
variable (zone : Calendar.Zone)

/-- A portable service is read as the same service, on its own and in a list. -/
theorem legible_of_isPortable {s : Service} (h : s.IsPortable) :
    Legible Survives 7 s.toJson ∧ s.EachSeries (·.HasCounts Traffic.IsFinite) ∧
      s.reread.wire = s.wire ∧ s.EachSeries Series.IsSound := by
  have hsurvive : s.EachSeries (·.HasCounts (·.Each Survives)) :=
    h.series.imp fun t ht => ht.hasCounts fun x hx => hx.survives
  refine ⟨Service.legible h.latency_survives hsurvive, ?_, ?_, ?_⟩
  · exact hsurvive.imp fun t ht => ht.imp fun _ hx => hx.imp fun _ hsurvives => hsurvives.1
  · exact congrArg Service.wire (Service.reread_eq h.latency_survives hsurvive)
  · exact h.series.imp fun t ht => ht.isSound

theorem parse_list_toJson {services : List Service} (h : ∀ s ∈ services, s.IsPortable) :
    parse zone .reject (Json.list (services.map Service.toJson)).toText =
      .ok ⟨services.map Service.onClock⟩ := by
  have hparts (s : Service) (hs : s ∈ services) := legible_of_isPortable (h s hs)
  rw [parse_toText zone .reject (legible_listMap fun s hs => (hparts s hs).1) (by decide)
    (Snapshot.Document.shape?_list fun s hs => (hparts s hs).2.1), Snapshot.Document.services,
    List.map_congr_left fun s hs => (hparts s hs).2.2.1,
    ofSnapshot_wire zone fun s hs => (hparts s hs).2.2.2]
  rfl

theorem parse_one_toJson {s : Service} (h : s.IsPortable) :
    parse zone .reject s.toJson.toText = .ok ⟨[s.onClock]⟩ := by
  obtain ⟨hlegible, hfinite, hreread, hsound⟩ := legible_of_isPortable h
  have hone : ofSnapshot zone .reject [s.wire] = .ok ⟨[s.onClock]⟩ :=
    ofSnapshot_wire zone (List.forall_mem_singleton.mpr hsound)
  rw [parse_toText zone .reject hlegible (by decide) (Snapshot.Document.shape?_one hfinite),
    Snapshot.Document.services, hreread, hone]
  rfl

end

/-- **Printed services are loaded as they were, but for leap seconds inside a minute.**  Of services
with portable instants and numbers, and with any names, texts, keys, ports and statuses, a dashboard
shows what clocks show of the services that were printed, whether all in one list or each one alone.
That is the same service exactly if each of its leap seconds ends a minute of UTC. -/
theorem parse_toJson (zone : Calendar.Zone) {services : List Service}
    (h : ∀ s ∈ services, s.IsPortable) :
    parse zone .reject (Json.list (services.map Service.toJson)).toText =
        .ok ⟨services.map Service.onClock⟩ ∧
      ∀ s ∈ services, parse zone .reject s.toJson.toText = .ok ⟨[s.onClock]⟩ ∧
        (s.onClock = s ↔ s.EachSeries (·.EachInstant Instant.IsOnClock)) :=
  ⟨parse_list_toJson zone h,
    fun s hs => ⟨parse_one_toJson zone (h s hs), Service.onClock_eq_self_iff⟩⟩

/-- A sample in a leap second at the end of a minute, counts of which one is a negative zero, a
latency below zero, and a name with a quote and a control character. -/
theorem parse_toJson_leapSecond :
    let leap : Instant := ⟨1483228799, 1123000000, by decide, by decide⟩
    let route : Route :=
      { key := some 7, status := some .stopping, latency := some (-12.0),
        stats := some ⟨[⟨leap, ⟨1024.0, -0.0⟩⟩], ⟨1024.0, 3.0⟩⟩ }
    let services : List Service := [{ name := "a\"\x07", routes := [route] }, {}]
    (∀ s ∈ services, s.IsPortable) ∧
      parse .utc .reject (Json.list (services.map Service.toJson)).toText = .ok ⟨services⟩ ∧
      ∀ s ∈ services, parse .utc .reject s.toJson.toText = .ok ⟨[s]⟩ := by
  intro leap route services
  have hleap : leap.IsWholeMillis ∧ leap.HasPlainYear ∧ leap.IsOnClock := by
    unfold leap Instant.IsWholeMillis
    exact ⟨rfl, ⟨by decide, by decide⟩, Or.inr rfl⟩
  have hnone {α : Type} {P : α → Prop} : ∀ a ∈ (none : Option α), P a := fun _ h => nomatch h
  have hsent : Traffic.IsSmallCount 1024.0 :=
    ⟨1024, by decide, ⟨⟨2 ^ 52, -42⟩, by rfl, by rfl⟩, fun h => nomatch h⟩
  have hthree : Traffic.IsSmallCount 3.0 :=
    ⟨3, by decide, ⟨⟨3 * 2 ^ 51, -51⟩, by rfl, by rfl⟩, fun h => nomatch h⟩
  have hzero : Traffic.IsSmallCount (-0.0) :=
    ⟨0, by decide, Decimal.isWhole_zeros.2, fun _ => rfl⟩
  have hlatency : IsSmallWhole (-12.0) := ⟨12, by decide, ⟨⟨12 * 2 ^ 49, -49⟩, by rfl, by rfl⟩⟩
  have hroute : route.IsPortable := by
    refine ⟨fun x hx => Option.some.inj hx ▸ hlatency, fun s hs => Option.some.inj hs ▸ ?_⟩
    exact ⟨List.forall_mem_singleton.mpr ⟨hleap.1, hleap.2.1, hsent, hzero⟩, hsent, hthree⟩
  have hservices : ∀ s ∈ services, s.IsPortable := by
    refine List.forall_mem_cons.mpr ⟨⟨List.forall_mem_singleton.mpr hroute, hnone, hnone⟩, ?_⟩
    exact List.forall_mem_singleton.mpr ⟨List.forall_mem_nil _, hnone, hnone⟩
  have hclock : ∀ s ∈ services, s.EachSeries (·.EachInstant Instant.IsOnClock) := by
    refine List.forall_mem_cons.mpr ⟨⟨List.forall_mem_singleton.mpr fun s hs => ?_, hnone⟩, ?_⟩
    · exact Option.some.inj hs ▸ List.forall_mem_singleton.mpr hleap.2.2
    · exact List.forall_mem_singleton.mpr ⟨List.forall_mem_nil _, hnone⟩
  obtain ⟨hlist, halone⟩ := parse_toJson .utc hservices
  have hsame (s : Service) (hs : s ∈ services) : s.onClock = s :=
    (halone s hs).2.mpr (hclock s hs)
  rw [List.map_congr_left hsame, List.map_id'] at hlist
  refine ⟨hservices, hlist, fun s hs => ?_⟩
  rw [(halone s hs).1, hsame s hs]

/-- A leap second inside a minute is loaded as the second after it. -/
theorem parse_toJson_insideMinute :
    let leap : Instant := ⟨30, 1500000000, by decide, by decide⟩
    let next : Instant := ⟨31, 500000000, by decide, by decide⟩
    let service (t : Instant) : Service := { stats := some ⟨[⟨t, Traffic.zero⟩], Traffic.zero⟩ }
    (service leap).IsPortable ∧ service leap ≠ service next ∧
      parse .utc .reject (Json.list [(service leap).toJson]).toText = .ok ⟨[service next]⟩ ∧
      parse .utc .reject (service leap).toJson.toText = .ok ⟨[service next]⟩ := by
  intro leap next service
  have hnone : ∀ x ∈ (none : Option Float), IsSmallWhole x := fun _ h => nomatch h
  have hzero : Traffic.IsSmallCount 0.0 := ⟨0, by decide, Decimal.isWhole_zeros.1, fun _ => rfl⟩
  have hportable : (service leap).IsPortable := by
    refine ⟨List.forall_mem_nil _, hnone, fun s hs => Option.some.inj hs ▸ ⟨?_, hzero, hzero⟩⟩
    exact List.forall_mem_singleton.mpr ⟨by decide, ⟨by decide, by decide⟩, hzero, hzero⟩
  have hshown : leap.onClock = next := by decide
  have hnext : (service leap).onClock = service next := by
    rw [← hshown]
    rfl
  refine ⟨hportable, fun h => ?_, ?_, ?_⟩
  · have htimes := congrArg (fun s : Service => s.stats.map fun t => t.points.map Point.time) h
    exact absurd htimes (by decide)
  · have hlist := parse_list_toJson .utc (List.forall_mem_singleton.mpr hportable)
    rwa [List.map_singleton, List.map_singleton, hnext] at hlist
  · have hone := parse_one_toJson .utc hportable
    rwa [hnext] at hone

end Dashboard

end RouteTraffic
