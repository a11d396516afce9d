import RouteTraffic.Proofs.FirstFault
import RouteTraffic.Proofs.SnapshotRoundTrip
import RouteTraffic.Proofs.TimestampTexts

/-! # Dashboards printed and loaded again

The services of a dashboard, printed as a list, are a snapshot again.  Its counts are as valid as they
were, whatever digits they lose, so that only the texts of the instants decide whether the strict
policy accepts it: it does exactly if each has a year of four digits (`Dashboard.parse_printed`).
Then every sample is found at the instant that a clock shows, which is its own unless it was taken
in a leap second inside a minute. -/

namespace RouteTraffic

open Json

/-! ### What a dashboard shows -/

theorem exists_of_mem_right {α β : Type} {R : α → β → Prop} {l : List α} {m : List β}
    (h : List.Forall₂ R l m) : ∀ b ∈ m, ∃ a ∈ l, R a b := by
  induction h with
  | nil => exact fun _ hb => nomatch hb
  | @cons a b l m hab _ ih =>
      refine List.forall_mem_cons.mpr ⟨⟨a, List.mem_cons_self, hab⟩, fun c hc => ?_⟩
      obtain ⟨a', ha', hac⟩ := ih c hc
      exact ⟨a', List.mem_cons_of_mem a ha', hac⟩

section
variable {zone : Calendar.Zone} {policy : SamplePolicy}

theorem Service.Shows.eachSeries {P : Series Float → Prop}
    (hP : ∀ {samples series}, Series.Shows zone policy samples series → P series)
    {s : Snapshot.Service} {v : Service} (h : Service.Shows zone policy s v) : v.EachSeries P := by
  have hoptional {o : Option Snapshot.Samples} {o' : Option (Series Float)}
      (hrel : Option.Rel (Series.Shows zone policy) o o') : ∀ t ∈ o', P t := by
    cases hrel with
    | none => exact fun _ ht => nomatch ht
    | some hshows => exact fun t ht => Option.some.inj ht ▸ hP hshows
  refine ⟨fun r hr => ?_, hoptional h.stats⟩
  obtain ⟨r', -, hshows⟩ := exists_of_mem_right h.routes r hr
  exact hoptional hshows.stats

section
variable {samples : Snapshot.Samples} {series : Series Float}
  (h : Series.Shows zone policy samples series)
include h

theorem Series.Shows.hasCounts : series.HasCounts (·.isValid = true) :=
  ⟨h.total_valid, fun p hp => by
    obtain ⟨s, -, hshows⟩ := exists_of_mem_right h.points p hp
    exact hshows.valid⟩

theorem Series.Shows.wholeMillis :
    series.EachInstant fun t => t.IsWholeMillis ∨ t.IsPastEnd := fun p hp => by
  obtain ⟨s, -, hshows⟩ := exists_of_mem_right h.points p hp
  exact hshows.millis

theorem Series.Shows.onClock (hzone : zone.IsWholeMinutes) :
    series.EachInstant Instant.IsOnClock := fun p hp => by
  obtain ⟨s, -, hshows⟩ := exists_of_mem_right h.points p hp
  exact Snapshot.Timestamp.resolve_onClock hzone hshows.time

end

end

/-! ### What is read of it -/

/-- The calendar ends long after the years of four digits. -/
theorem Instant.wholeMillis_of_plainYear {t : Instant} (h : t.HasPlainYear)
    (hmillis : t.IsWholeMillis ∨ t.IsPastEnd) : t.IsWholeMillis := by
  refine hmillis.resolve_right fun hend => absurd h.2 ?_
  rw [year, hend.1]
  decide

theorem Traffic.reread_isValid {t : Traffic Float} (h : t.isValid = true) :
    t.reread.isValid = true := by
  obtain ⟨hsent, hreceived⟩ := isValid_iff.mp h
  exact isValid_iff.mpr ⟨ok_rereadDouble hsent, ok_rereadDouble hreceived⟩

theorem Traffic.isFinite_of_isValid {t : Traffic Float} (h : t.isValid = true) : t.IsFinite :=
  (isValid_iff.mp h).imp fun _ hok => (Decimal.ok_iff.mp hok).1

theorem Series.wellFormed_reread_iff (zone : Calendar.Zone) {s : Series Float}
    (h : s.HasCounts (·.isValid = true)) :
    s.reread.wire.WellFormed zone ↔ s.EachInstant Instant.HasPlainYear := by
  have hresolve (p : Point Float) :
      (∃ t, p.reread.wire.timestamp.resolve zone = .ok t) ↔ p.time.HasPlainYear := by
    rw [← Instant.parse_toText_iff zone]
    show (∃ t, parseTimestamp zone p.time.toText = .ok t) ↔ _
    unfold parseTimestamp
    cases Instant.parse zone p.time.toText with
    | ok t => exact iff_of_true ⟨t, rfl⟩ ⟨t, rfl⟩
    | error f => exact iff_of_false (fun ⟨_, hok⟩ => nomatch hok) fun ⟨_, hok⟩ => nomatch hok
  have hvalid : ∀ p ∈ s.points, p.reread.wire.value.isValid = true :=
    fun p hp => Traffic.reread_isValid (h.2 p hp)
  have htotal : s.reread.wire.total.isValid = true := Traffic.reread_isValid h.1
  constructor
  · intro hformed p hp
    have hmem : p.reread.wire ∈ s.reread.wire.points :=
      List.mem_map_of_mem (List.mem_map_of_mem hp)
    exact (hresolve p).mp (hformed.1 _ hmem).1
  · refine fun hyears => ⟨fun q hq => ?_, htotal⟩
    obtain ⟨p', hp', rfl⟩ := List.mem_map.mp hq
    obtain ⟨p, hp, rfl⟩ := List.mem_map.mp hp'
    exact ⟨(hresolve p).mpr (hyears p hp), hvalid p hp⟩

theorem Series.isSound_reread {s : Series Float} (h : s.HasCounts (·.isValid = true))
    (hmillis : s.EachInstant fun t => t.IsWholeMillis ∨ t.IsPastEnd)
    (hyears : s.EachInstant Instant.HasPlainYear) : s.reread.IsSound := by
  refine ⟨fun q hq => ?_, Traffic.reread_isValid h.1⟩
  obtain ⟨p, hp, rfl⟩ := List.mem_map.mp hq
  exact ⟨Instant.wholeMillis_of_plainYear (hyears p hp) (hmillis p hp), hyears p hp,
    Traffic.reread_isValid (h.2 p hp)⟩

theorem Series.eachInstant_reread {P : Instant → Prop} {s : Series Float} :
    s.reread.EachInstant P ↔ s.EachInstant P :=
  List.forall_mem_map

theorem mem_map_reread {P : Series Float → Prop} {o : Option (Series Float)} :
    (∀ t ∈ o.map Series.reread, P t) ↔ ∀ t ∈ o, P t.reread := by
  cases o <;> simp

theorem Service.eachSeries_reread {P : Series Float → Prop} {s : Service} :
    s.reread.EachSeries P ↔ s.EachSeries fun t => P t.reread := by
  constructor
  · refine fun h => ⟨fun r hr => ?_, mem_map_reread.mp h.own⟩
    exact mem_map_reread.mp (h.routes r.reread (List.mem_map_of_mem hr))
  · refine fun h => ⟨fun r hr => ?_, mem_map_reread.mpr h.own⟩
    obtain ⟨r', hr', rfl⟩ := List.mem_map.mp hr
    exact mem_map_reread.mpr (h.routes r' hr')

theorem wellFormed_wire_iff (zone : Calendar.Zone) (services : List Service) :
    Snapshot.WellFormed zone (services.map Service.wire) ↔
      ∀ s ∈ services, s.EachSeries fun t => t.wire.WellFormed zone := by
  have hoptional (o : Option (Series Float)) :
      (∀ t ∈ o.map Series.wire, t.WellFormed zone) ↔ ∀ t ∈ o, t.wire.WellFormed zone := by
    cases o <;> simp
  have hservice (s : Service) : ((∀ r ∈ s.wire.routes, ∀ t ∈ r.stats, t.WellFormed zone) ∧
      ∀ t ∈ s.wire.stats, t.WellFormed zone) ↔
        s.EachSeries fun t => t.wire.WellFormed zone := by
    simp only [Service.wire, Route.wire, List.forall_mem_map, hoptional]
    exact ⟨fun h => ⟨h.1, h.2⟩, fun h => ⟨h.routes, h.own⟩⟩
  simp only [Snapshot.WellFormed, List.forall_mem_map, hservice]

namespace Dashboard

section
variable {services : List Service}
  (h : ∀ s ∈ services, s.EachSeries (·.HasCounts (·.isValid = true)))
include h

/-- Printed services with valid counts are loaded as a snapshot of those that are read. -/
theorem parse_reread (zone : Calendar.Zone) (policy : SamplePolicy) :
    parse zone policy (Json.list (services.map Service.toJson)).toText =
      (ofSnapshot zone policy ((services.map Service.reread).map Service.wire)).mapError
        .sample := by
  have hlegible (s : Service) : Legible (fun _ => True) 7 s.toJson :=
    Service.legible ⟨fun _ _ _ _ => trivial, fun _ _ => trivial⟩
      ⟨fun _ _ _ _ => ⟨⟨trivial, trivial⟩, fun _ _ => ⟨trivial, trivial⟩⟩,
        fun _ _ => ⟨⟨trivial, trivial⟩, fun _ _ => ⟨trivial, trivial⟩⟩⟩
  have hfinite (s : Service) (hs : s ∈ services) : s.EachSeries (·.HasCounts Traffic.IsFinite) :=
    (h s hs).imp fun t ht => ht.imp fun _ hvalid => Traffic.isFinite_of_isValid hvalid
  rw [parse_toText zone policy (legible_listMap fun s _ => hlegible s) (by decide)
    (Snapshot.Document.shape?_list hfinite), List.map_map]
  rfl

theorem parse_reread_isOk_iff (zone : Calendar.Zone) :
    (∃ d, parse zone .reject (Json.list (services.map Service.toJson)).toText = .ok d) ↔
      ∀ s ∈ services, s.EachSeries (·.EachInstant Instant.HasPlainYear) := by
  have hseries (s : Service) (hs : s ∈ services) :
      (s.reread.EachSeries fun t => t.wire.WellFormed zone) ↔
        s.EachSeries (·.EachInstant Instant.HasPlainYear) := by
    rw [Service.eachSeries_reread]
    constructor
    · intro hformed
      exact ((h s hs).and hformed).imp fun t ht => (Series.wellFormed_reread_iff zone ht.1).mp ht.2
    · intro hyears
      exact ((h s hs).and hyears).imp fun t ht => (Series.wellFormed_reread_iff zone ht.1).mpr ht.2
  have hmapError {r : Except MalformedSample Dashboard} :
      (∃ d, r.mapError Error.sample = .ok d) ↔ ∃ d, r = .ok d := by
    cases r with
    | ok d => exact iff_of_true ⟨d, rfl⟩ ⟨d, rfl⟩
    | error e => exact iff_of_false (fun ⟨_, hok⟩ => nomatch hok) fun ⟨_, hok⟩ => nomatch hok
  rw [parse_reread h, hmapError, ofSnapshot_isOk_iff, wellFormed_wire_iff, List.forall_mem_map]
  exact forall₂_congr hseries

theorem parse_reread_of_plainYears (zone : Calendar.Zone)
    (hmillis : ∀ s ∈ services, s.EachSeries (·.EachInstant fun t => t.IsWholeMillis ∨ t.IsPastEnd))
    (hyears : ∀ s ∈ services, s.EachSeries (·.EachInstant Instant.HasPlainYear)) :
    parse zone .reject (Json.list (services.map Service.toJson)).toText =
      .ok ⟨(services.map Service.reread).map Service.onClock⟩ := by
  have hsound : ∀ s ∈ services.map Service.reread, s.EachSeries Series.IsSound := by
    refine List.forall_mem_map.mpr fun s hs => Service.eachSeries_reread.mpr ?_
    have hall := (h s hs).and ((hmillis s hs).and (hyears s hs))
    exact hall.imp fun t ht => Series.isSound_reread ht.1 ht.2.1 ht.2.2
  rw [parse_reread h, ofSnapshot_wire zone hsound]
  rfl

end

/-- **What a dashboard shows can be loaded again from the years of four digits.**  The services that
a dashboard shows of any snapshot under either policy, printed as a list, are accepted by the strict
policy in every zone exactly if all their samples lie in the years from 0 to 9999.  Then they are
the same services with the same samples, their doubles as their texts are read, at the instants that
clocks show.  These are the same instants unless a leap second is in the middle of a minute, as it
never is where clocks differ from UTC by whole minutes. -/
theorem parse_printed {zone : Calendar.Zone} {policy : SamplePolicy}
    {snapshot : List Snapshot.Service} {d : Dashboard} (h : ofSnapshot zone policy snapshot = .ok d)
    (zone' : Calendar.Zone) :
    let text := (Json.list (d.services.map Service.toJson)).toText
    ((∃ e, parse zone' .reject text = .ok e) ↔
        ∀ s ∈ d.services, s.EachSeries (·.EachInstant Instant.HasPlainYear)) ∧
      ((∀ s ∈ d.services, s.EachSeries (·.EachInstant Instant.HasPlainYear)) →
        parse zone' .reject text = .ok ⟨(d.services.map Service.reread).map Service.onClock⟩) ∧
      ((∀ s ∈ d.services, s.EachSeries (·.EachInstant Instant.IsPrintable)) →
        parse zone' .reject text = .ok ⟨d.services.map Service.reread⟩) ∧
      (zone.IsWholeMinutes →
        ∀ s ∈ d.services, s.EachSeries (·.EachInstant Instant.IsOnClock)) := by
  obtain ⟨services, hservices, rfl⟩ := map_eq_ok h
  have hshows := forall₂_of_mapM checkService_shows hservices
  have heach {P : Series Float → Prop}
      (hP : ∀ {samples series}, Series.Shows zone policy samples series → P series) :
      ∀ s ∈ services, s.EachSeries P := by
    intro s hs
    obtain ⟨s', -, hs'⟩ := exists_of_mem_right hshows s hs
    exact hs'.eachSeries hP
  have hvalid := heach Series.Shows.hasCounts
  have hmillis := heach Series.Shows.wholeMillis
  have hplain := parse_reread_of_plainYears hvalid zone' hmillis
  refine ⟨parse_reread_isOk_iff hvalid zone', hplain, fun hprintable => ?_,
    fun hzone => heach fun hseries => hseries.onClock hzone⟩
  have hsame : ∀ s ∈ services.map Service.reread, s.onClock = s := by
    refine List.forall_mem_map.mpr fun s hs => Service.onClock_eq_self_iff.mpr ?_
    refine Service.eachSeries_reread.mpr ((hprintable s hs).imp fun t ht => ?_)
    exact Series.eachInstant_reread.mpr fun p hp => (ht p hp).onClock
  rw [hplain fun s hs => (hprintable s hs).imp fun t ht p hp => (ht p hp).hasPlainYear,
    List.map_congr_left hsame, List.map_id']

/-- A local time in a leap second, a count that is no binary fraction, and a sample to drop. -/
theorem parse_printed_leapSecond :
    let zone : Calendar.Zone := ⟨-18000, none⟩
    let samples : Snapshot.Samples :=
      { points := [⟨.text "2016-12-31 18:59:60.1239", ⟨0.1, 2.0⟩⟩, ⟨.text "soon", Traffic.zero⟩,
          ⟨.millis (-1), ⟨1.0e22, 0.0⟩⟩] }
    let services : List Snapshot.Service :=
      [{ latency := some (0.0 / 0.0), routes := [{ key := some 1, stats := some samples }] }]
    ∃ d, ofSnapshot zone .drop services = .ok d ∧ d.services.length = 1 ∧
      parse .utc .reject (Json.list (d.services.map Service.toJson)).toText =
        .ok ⟨d.services.map Service.reread⟩ := by
  intro zone samples services
  obtain ⟨shown, hshown⟩ : ∃ shown : Series Float, shown =
      ⟨[⟨⟨1483228799, 1123000000, by decide, by decide⟩, ⟨0.1, 2.0⟩⟩,
        ⟨⟨-1, 999000000, by decide, by decide⟩, ⟨1.0e22, 0.0⟩⟩], Traffic.zero⟩ := ⟨_, rfl⟩
  have h : ofSnapshot zone .drop services = .ok
      ⟨[{ latency := some (0.0 / 0.0), routes := [{ key := some 1, stats := some shown }] }]⟩ := by
    rw [hshown]
    unfold services samples zone
    rfl
  refine ⟨_, h, rfl, (parse_printed h .utc).2.2.1 (List.forall_mem_singleton.mpr ⟨?_, nofun⟩)⟩
  refine List.forall_mem_singleton.mpr fun t ht => ?_
  rw [← Option.some.inj ht, hshown]
  refine List.forall_mem_cons.mpr ⟨⟨by decide, by decide, Or.inr (by decide)⟩, ?_⟩
  exact List.forall_mem_singleton.mpr ⟨by decide, by decide, Or.inl (by decide)⟩

/-- The first millisecond of the year 10000 gets in as a number, but not as the text of it.  Where
clocks are 19 minutes and 32 seconds behind UTC, the leap second at the end of a local minute is
inside a minute of UTC, and it is loaded as the second after it. -/
theorem parse_printed_refused_or_moved :
    let far : Snapshot.Service :=
      { stats := some { points := [⟨.millis 253402300800000, Traffic.zero⟩] } }
    let leap : Snapshot.Service :=
      { stats := some { points := [⟨.text "2016-12-31T23:59:60.5", Traffic.zero⟩] } }
    let shown (t : Instant) : Service := { stats := some ⟨[⟨t, Traffic.zero⟩], Traffic.zero⟩ }
    (∃ d, ofSnapshot .utc .reject [far] = .ok d ∧
        ¬ ∃ e, parse .utc .reject (Json.list (d.services.map Service.toJson)).toText = .ok e) ∧
      ∃ t u : Instant, t ≠ u ∧ ofSnapshot ⟨-1172, none⟩ .reject [leap] = .ok ⟨[shown t]⟩ ∧
        parse .utc .reject (Json.list [(shown t).toJson]).toText = .ok ⟨[shown u]⟩ := by
  intro far leap shown
  have hvalid (t : Instant) : ∀ s ∈ [shown t], s.EachSeries (·.HasCounts (·.isValid = true)) := by
    refine List.forall_mem_singleton.mpr ⟨List.forall_mem_nil _, fun s hs => ?_⟩
    exact Option.some.inj hs ▸
      ⟨Traffic.zero_isValid, List.forall_mem_singleton.mpr Traffic.zero_isValid⟩
  have heach {P : Instant → Prop} {t : Instant} (ht : P t) :
      ∀ s ∈ [shown t], s.EachSeries (·.EachInstant P) := by
    refine List.forall_mem_singleton.mpr ⟨List.forall_mem_nil _, fun s hs => ?_⟩
    exact Option.some.inj hs ▸ List.forall_mem_singleton.mpr ht
  constructor
  · obtain ⟨t, ht⟩ : ∃ t : Instant, t = ⟨253402300800, 0, by decide, by decide⟩ := ⟨_, rfl⟩
    have h : ofSnapshot .utc .reject [far] = .ok ⟨[shown t]⟩ := by
      rw [ht]
      rfl
    refine ⟨_, h, fun hok => ?_⟩
    have hyears := (parse_reread_isOk_iff (hvalid t) .utc).mp hok
    have hyear := (hyears _ List.mem_cons_self).own _ rfl _ List.mem_cons_self
    rw [ht] at hyear
    exact absurd hyear.2 (by decide)
  · obtain ⟨t, ht⟩ : ∃ t : Instant, t = ⟨1483229971, 1500000000, by decide, by decide⟩ := ⟨_, rfl⟩
    obtain ⟨u, hu⟩ : ∃ u : Instant, u = ⟨1483229972, 500000000, by decide, by decide⟩ := ⟨_, rfl⟩
    have h : ofSnapshot ⟨-1172, none⟩ .reject [leap] = .ok ⟨[shown t]⟩ := by
      rw [ht]
      unfold leap shown
      rfl
    have hparse := parse_reread_of_plainYears (hvalid t) .utc (heach (Or.inl (by rw [ht]; decide)))
      (heach (by rw [ht]; exact ⟨by decide, by decide⟩))
    have hclock : t.onClock = u := by
      rw [ht, hu]
      decide
    have hzero : Survives 0.0 := IsSmallWhole.survives ⟨0, by decide, Decimal.isWhole_zeros.1⟩
    have hcounts : (shown t).EachSeries (·.HasCounts (·.Each Survives)) := by
      refine ⟨List.forall_mem_nil _, fun s hs => Option.some.inj hs ▸ ⟨⟨hzero, hzero⟩, ?_⟩⟩
      exact List.forall_mem_singleton.mpr ⟨hzero, hzero⟩
    have hreread : (shown t).reread = shown t :=
      Service.reread_eq ⟨List.forall_mem_nil _, fun _ hx => nomatch hx⟩ hcounts
    have hshown : (shown t).onClock = shown u := by
      rw [← hclock]
      rfl
    refine ⟨t, u, by rw [ht, hu]; decide, h, ?_⟩
    rw [List.map_singleton, List.map_singleton, List.map_singleton, hreread, hshown] at hparse
    exact hparse

end Dashboard

end RouteTraffic
