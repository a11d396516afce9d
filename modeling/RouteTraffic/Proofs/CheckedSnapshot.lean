import RouteTraffic.Dashboard
import RouteTraffic.Proofs.Timeline
import Mathlib.Data.List.Forall2

/-! # What a dashboard shows of a snapshot

A dashboard has the services and routes of its snapshot, one for one, with their fields; the
series of each has a point for every well-formed sample, in the order of the samples
(`Dashboard.ofSnapshot_shows`).  Every timestamp that can be read stands for an instant of whole
milliseconds (`resolve_wholeMillis`), but for one second: the digits of an instant in a leap
second after the last second of the calendar stay as they are
(`Dashboard.ofSnapshot_shows_past_end`). -/

namespace RouteTraffic

open Snapshot (Sample Samples)

/-! ### Timestamps -/

namespace Instant

theorem midnight?_wholeMillis {cs : List Char} {t : Instant} (h : midnight? cs = some t) :
    t.IsWholeMillis := by
  unfold midnight? at h
  obtain ⟨⟨date, rest⟩, -, h⟩ := Option.bind_eq_some_iff.mp h
  dsimp only at h
  split_ifs at h
  obtain ⟨time, htime, h⟩ := Option.bind_eq_some_iff.mp h
  obtain ⟨-, hnanos⟩ := of?_eq_some_iff.mp h
  unfold LocalTime.of? at htime
  rw [if_neg (by decide : ¬ 0 = 60)] at htime
  split_ifs at htime
  rw [IsWholeMillis, hnanos, ← Option.some.inj htime]
  rfl

theorem parse_wholeMillis {zone : Calendar.Zone} {text : String} {t : Instant}
    (h : parse zone text = .ok t) : t.IsWholeMillis ∨ t.IsPastEnd := by
  unfold parse at h
  dsimp only at h
  split at h
  · exact Except.ok.inj h ▸ truncateToMillis_wholeMillis _
  · split at h
    · split at h
      · exact Except.ok.inj h ▸ truncateToMillis_wholeMillis _
      · cases h
    · split at h
      · rename_i hmidnight
        exact Or.inl (Except.ok.inj h ▸ midnight?_wholeMillis hmidnight)
      · cases h

end Instant

theorem Snapshot.Timestamp.resolve_wholeMillis {zone : Calendar.Zone} {stamp : Timestamp}
    {t : Instant} (h : stamp.resolve zone = .ok t) : t.IsWholeMillis ∨ t.IsPastEnd := by
  cases stamp with
  | text s =>
      unfold resolve parseTimestamp at h
      dsimp only at h
      split at h
      · rename_i hs
        exact Except.ok.inj h ▸ Instant.parse_wholeMillis hs
      · cases h
  | millis ms =>
      unfold resolve timestampOfMillis at h
      dsimp only at h
      split at h
      · rename_i hms
        exact Or.inl (Except.ok.inj h ▸ Instant.ofEpochMillis?_wholeMillis hms)
      · cases h

/-! ### What is shown of each part -/

section shows
variable (zone : Calendar.Zone)

/-- The timestamp can be read, and the counts are valid. -/
def Snapshot.Sample.isWellFormed (s : Sample) : Bool :=
  (s.timestamp.resolve zone).isOk && s.value.isValid

/-- The point stands at the instant of a sample and has its counts. -/
structure Point.Shows (s : Sample) (p : Point Float) : Prop where
  time : s.timestamp.resolve zone = .ok p.time
  value : p.value = s.value
  valid : p.value.isValid
  millis : p.time.IsWholeMillis ∨ p.time.IsPastEnd

/-- The points are those of the well-formed samples, in their order, and the total is the one
reported if that is valid. -/
structure Series.Shows (policy : SamplePolicy) (s : Samples) (r : Series Float) : Prop where
  points : List.Forall₂ (Point.Shows zone) (s.points.filter (·.isWellFormed zone)) r.points
  total : r.total = if s.total.isValid then s.total else Traffic.zero
  total_valid : r.total.isValid
  total_reported : policy = .reject → r.total = s.total

/-- The route has the fields that were reported, and a series if one was. -/
structure Route.Shows (policy : SamplePolicy) (s : Snapshot.Route) (r : Route) : Prop where
  key : r.key = s.key
  kind : r.kind = s.kind
  domain : r.domain = s.domain
  port : r.port = s.port
  status : r.status = s.status.bind RouteStatus.ofName?
  latency : r.latency = s.latency
  stats : Option.Rel (Series.Shows zone policy) s.stats r.stats

/-- The service has the fields that were reported, the routes in their order, and a series if one
was reported. -/
structure Service.Shows (policy : SamplePolicy) (s : Snapshot.Service) (v : Service) : Prop where
  id : v.id = s.id
  name : v.name = s.name
  enabled : v.enabled = s.enabled
  routes : List.Forall₂ (Route.Shows zone policy) s.routes v.routes
  latency : v.latency = s.latency
  stats : Option.Rel (Series.Shows zone policy) s.stats v.stats

end shows

/-! ### The checks, part by part -/

section outcomes
variable {ε α β : Type}

theorem bind_eq_ok {x : Except ε α} {f : α → Except ε β} {b : β} (h : x >>= f = .ok b) :
    ∃ a, x = .ok a ∧ f a = .ok b := by
  cases x with
  | error e => cases h
  | ok a => exact ⟨a, rfl, h⟩

theorem map_eq_ok {x : Except ε α} {f : α → β} {b : β} (h : x.map f = .ok b) :
    ∃ a, x = .ok a ∧ f a = b := by
  cases x with
  | error e => cases h
  | ok a => exact ⟨a, rfl, Except.ok.inj h⟩

theorem forall₂_of_mapM {f : α → Except ε β} {R : α → β → Prop}
    (h : ∀ {a b}, f a = .ok b → R a b) : ∀ {l : List α} {results : List β},
      l.mapM f = .ok results → List.Forall₂ R l results
  | [], results, hl => by
      obtain rfl : [] = results := Except.ok.inj hl
      exact List.Forall₂.nil
  | a :: l, results, hl => by
      rw [List.mapM_cons] at hl
      obtain ⟨b, ha, hl⟩ := bind_eq_ok hl
      obtain ⟨bs, hrest, hl⟩ := bind_eq_ok hl
      obtain rfl : b :: bs = results := Except.ok.inj hl
      exact List.Forall₂.cons (h ha) (forall₂_of_mapM h hrest)

end outcomes

theorem Snapshot.Sample.check_shows (zone : Calendar.Zone) (s : Sample) :
    (∃ p, s.check zone = .ok p ∧ s.isWellFormed zone ∧ p.Shows zone s) ∨
      ∃ e, s.check zone = .error e ∧ ¬ s.isWellFormed zone := by
  unfold check isWellFormed
  cases hs : s.timestamp.resolve zone with
  | error e => exact Or.inr ⟨e, rfl, Bool.false_ne_true⟩
  | ok t =>
      by_cases hv : s.value.isValid
      · exact Or.inl ⟨⟨t, s.value⟩, if_pos hv, hv,
          hs, rfl, hv, Snapshot.Timestamp.resolve_wholeMillis hs⟩
      · exact Or.inr ⟨_, if_neg hv, hv⟩

section checks
variable {zone : Calendar.Zone} {policy : SamplePolicy}

theorem checkPoints_shows {samples : List Sample} {points : List (Point Float)}
    (h : checkPoints zone policy samples = .ok points) :
    List.Forall₂ (Point.Shows zone) (samples.filter (·.isWellFormed zone)) points := by
  induction samples generalizing points with
  | nil =>
      obtain rfl : [] = points := Except.ok.inj h
      exact List.Forall₂.nil
  | cons s samples ih =>
      unfold checkPoints at h
      rcases s.check_shows zone with ⟨p, hp, hgood, hshows⟩ | ⟨e, he, hbad⟩
      · rw [hp] at h
        obtain ⟨ps, hps, rfl⟩ := map_eq_ok h
        rw [List.filter_cons_of_pos hgood]
        exact List.Forall₂.cons hshows (ih hps)
      · rw [he] at h
        rw [List.filter_cons_of_neg hbad]
        cases policy with
        | drop => exact ih h
        | reject => cases h

theorem Traffic.zero_isValid : (Traffic.zero : Traffic Float).isValid := by decide

theorem checkSamples_shows {s : Samples} {r : Series Float}
    (h : checkSamples zone policy s = .ok r) : r.Shows zone policy s := by
  obtain ⟨points, hpoints, h⟩ := bind_eq_ok h
  have hshown := checkPoints_shows hpoints
  unfold checkTotal at h
  by_cases hvalid : s.total.isValid
  · rw [if_pos hvalid] at h
    obtain rfl : ⟨points, s.total⟩ = r := Except.ok.inj h
    exact ⟨hshown, (if_pos hvalid).symm, hvalid, fun _ => rfl⟩
  · rw [if_neg hvalid] at h
    cases policy with
    | reject => cases h
    | drop =>
        obtain rfl : ⟨points, Traffic.zero⟩ = r := Except.ok.inj h
        exact ⟨hshown, (if_neg hvalid).symm, Traffic.zero_isValid, fun hreject => nomatch hreject⟩

theorem checkOptional_shows {stats : Option Samples} {r : Option (Series Float)}
    (h : checkOptional zone policy stats = .ok r) :
    Option.Rel (Series.Shows zone policy) stats r := by
  cases stats with
  | none =>
      obtain rfl : none = r := Except.ok.inj h
      exact Option.Rel.none
  | some s =>
      obtain ⟨series, hseries, rfl⟩ := map_eq_ok h
      exact Option.Rel.some (checkSamples_shows hseries)

theorem checkRoute_shows {s : Snapshot.Route} {r : Route} (h : checkRoute zone policy s = .ok r) :
    r.Shows zone policy s := by
  obtain ⟨stats, hstats, rfl⟩ := map_eq_ok h
  exact ⟨rfl, rfl, rfl, rfl, rfl, rfl, checkOptional_shows hstats⟩

theorem checkService_shows {s : Snapshot.Service} {v : Service}
    (h : checkService zone policy s = .ok v) : v.Shows zone policy s := by
  obtain ⟨routes, hroutes, h⟩ := bind_eq_ok h
  obtain ⟨stats, hstats, h⟩ := bind_eq_ok h
  rw [← Except.ok.inj h]
  exact ⟨rfl, rfl, rfl, forall₂_of_mapM checkRoute_shows hroutes, rfl, checkOptional_shows hstats⟩

end checks

namespace Dashboard

/-- **A dashboard shows its snapshot.**  Under either policy, the services of a dashboard are those
of the snapshot, in order, with their fields, routes and series; the points of a series are its
well-formed samples, in order and with their counts; all counts are finite and not negative; and
all instants have whole milliseconds, unless they lie past the end of the calendar. -/
theorem ofSnapshot_shows (zone : Calendar.Zone) (policy : SamplePolicy)
    (services : List Snapshot.Service) (d : Dashboard)
    (h : ofSnapshot zone policy services = .ok d) :
    List.Forall₂ (Service.Shows zone policy) services d.services := by
  obtain ⟨vs, hvs, rfl⟩ := map_eq_ok h
  exact forall₂_of_mapM checkService_shows hvs

/-- A leap second, a sample to drop, a bare date and a total to drop, shown. -/
theorem ofSnapshot_shows_mixed :
    let samples : Samples :=
      ⟨[⟨.text "2016-12-31T23:59:60.1239Z", ⟨1.0, 2.0⟩⟩, ⟨.text "soon", ⟨3.0, 4.0⟩⟩,
        ⟨.text " 2025-04-11 ", ⟨5.0, 6.0⟩⟩, ⟨.millis (-1), ⟨7.0, -8.0⟩⟩], ⟨-1.0, 4.0⟩⟩
    let services : List Snapshot.Service :=
      [{ name := "web", routes := [{ stats := some samples }] }]
    ∃ d, ofSnapshot .utc .drop services = .ok d ∧
      List.Forall₂ (Service.Shows .utc .drop) services d.services := by
  intro samples services
  have h : ofSnapshot .utc .drop services = .ok ⟨[{ name := "web", routes :=
      [{ stats := some ⟨[⟨⟨1483228799, 1123000000, by decide, by decide⟩, ⟨1.0, 2.0⟩⟩,
        ⟨⟨1744329600, 0, by decide, by decide⟩, ⟨5.0, 6.0⟩⟩], Traffic.zero⟩ }] }]⟩ := by
    unfold services samples
    rfl
  exact ⟨_, h, ofSnapshot_shows .utc .drop services _ h⟩

/-- In a leap second past the end of the calendar all digits stay. -/
theorem ofSnapshot_shows_past_end :
    ∃ p : Point Float,
      ofSnapshot .utc .drop
          [{ stats := some
              { points := [⟨.text "+262142-12-31T23:59:60.123456789", Traffic.zero⟩] } }] =
        .ok ⟨[{ stats := some ⟨[p], Traffic.zero⟩ }]⟩ ∧
      ¬ p.time.IsWholeMillis := by
  refine ⟨⟨⟨Calendar.lastSecond, 1123456789, by decide, by decide⟩, Traffic.zero⟩, by rfl, ?_⟩
  unfold Instant.IsWholeMillis
  decide

end Dashboard

end RouteTraffic
