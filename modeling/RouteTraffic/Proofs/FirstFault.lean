import RouteTraffic.Dashboard

/-! # The first fault of a snapshot

The two policies take the same way through a snapshot, series by series.  `faults` lists what is
malformed on that way, and `WellFormed` says that nothing is.

`Agree` compares the outcomes of the two policies on one part of a snapshot: dropping succeeds,
and rejecting fails with the first fault of the part or else gives what dropping gives.  It passes
from parts to the whole (`Agree.map`, `Agree.bind`, `Agree.mapM`), up to the whole snapshot
(`Dashboard.ofSnapshot_rejects`). -/

namespace RouteTraffic

open Snapshot (Sample Samples)

/-! ### Well-formed snapshots and their faults -/

/-- All timestamps can be resolved, and all counts and the total are valid. -/
def Snapshot.Samples.WellFormed (zone : Calendar.Zone) (s : Samples) : Prop :=
  (∀ p ∈ s.points, (∃ t, p.timestamp.resolve zone = .ok t) ∧ p.value.isValid) ∧ s.total.isValid

/-- Every series of a route or a service is well formed. -/
def Snapshot.WellFormed (zone : Calendar.Zone) (services : List Snapshot.Service) : Prop :=
  ∀ v ∈ services, (∀ r ∈ v.routes, ∀ s ∈ r.stats, s.WellFormed zone) ∧
    ∀ s ∈ v.stats, s.WellFormed zone

namespace Snapshot
variable (zone : Calendar.Zone)

/-- What is wrong with a timestamp. -/
def Timestamp.faults (t : Timestamp) : List MalformedSample :=
  match t.resolve zone with
  | .ok _ => []
  | .error e => [e]

/-- What is wrong with counts. -/
def countFaults (subject : String) (value : Traffic Float) : List MalformedSample :=
  if value.isValid then [] else [.invalidValue subject value]

/-- The timestamp comes before the value. -/
def Sample.faults (s : Sample) : List MalformedSample :=
  s.timestamp.faults zone ++ countFaults s.timestamp.toText s.value

/-- The points come before the total. -/
def Samples.faults (s : Samples) : List MalformedSample :=
  s.points.flatMap (Sample.faults zone) ++ countFaults "total" s.total

/-- What is wrong with a series that may be missing. -/
def optionalFaults (stats : Option Samples) : List MalformedSample :=
  stats.toList.flatMap (Samples.faults zone)

/-- The routes come before the service's own series. -/
def Service.faults (v : Service) : List MalformedSample :=
  v.routes.flatMap (fun r => optionalFaults zone r.stats) ++ optionalFaults zone v.stats

/-- What is wrong with a snapshot, in the order of its services. -/
def faults (services : List Service) : List MalformedSample :=
  services.flatMap (Service.faults zone)

theorem Timestamp.faults_eq_nil_iff (t : Timestamp) :
    t.faults zone = [] ↔ ∃ i, t.resolve zone = .ok i := by
  unfold faults
  cases t.resolve zone with
  | ok i => exact ⟨fun _ => ⟨i, rfl⟩, fun _ => rfl⟩
  | error e => simp

theorem countFaults_eq_nil_iff (subject : String) (value : Traffic Float) :
    countFaults subject value = [] ↔ value.isValid := by
  unfold countFaults
  by_cases h : value.isValid
  · rw [if_pos h]
    exact ⟨fun _ => h, fun _ => rfl⟩
  · rw [if_neg h]
    exact ⟨fun hnil => absurd hnil (List.cons_ne_nil _ _), fun hv => absurd hv h⟩

theorem Samples.faults_eq_nil_iff (s : Samples) : s.faults zone = [] ↔ s.WellFormed zone := by
  simp only [faults, List.append_eq_nil_iff, List.flatMap_eq_nil_iff, Sample.faults,
    Timestamp.faults_eq_nil_iff, countFaults_eq_nil_iff, WellFormed]

theorem optionalFaults_eq_nil_iff (stats : Option Samples) :
    optionalFaults zone stats = [] ↔ ∀ s ∈ stats, s.WellFormed zone := by
  simp only [optionalFaults, List.flatMap_eq_nil_iff, Option.mem_toList, Option.mem_def,
    Samples.faults_eq_nil_iff]

theorem faults_eq_nil_iff (services : List Service) :
    faults zone services = [] ↔ WellFormed zone services := by
  simp only [faults, List.flatMap_eq_nil_iff, Service.faults, List.append_eq_nil_iff,
    optionalFaults_eq_nil_iff, WellFormed]

end Snapshot

/-! ### Two policies on one part -/

section agree
variable {α β : Type} {fs gs : List MalformedSample} {drop reject : Except MalformedSample α}

/-- The first fault, or a result if there is none. -/
def orFirst (fs : List MalformedSample) (a : α) : Except MalformedSample α :=
  match fs.head? with
  | none => .ok a
  | some e => .error e

/-- Dropping succeeds, and rejecting gives the same result or fails with the first fault. -/
def Agree (fs : List MalformedSample) (drop reject : Except MalformedSample α) : Prop :=
  ∃ a, drop = .ok a ∧ reject = orFirst fs a

theorem orFirst_isOk_iff (fs : List MalformedSample) (a : α) :
    (∃ b, orFirst fs a = .ok b) ↔ fs = [] := by
  cases fs with
  | nil => exact ⟨fun _ => rfl, fun _ => ⟨a, rfl⟩⟩
  | cons e es =>
      refine ⟨fun h => ?_, fun h => absurd h (List.cons_ne_nil e es)⟩
      obtain ⟨b, hb⟩ := h
      cases hb

theorem Agree.map (h : Agree fs drop reject) (f : α → β) :
    Agree fs (drop.map f) (reject.map f) := by
  obtain ⟨a, rfl, rfl⟩ := h
  refine ⟨f a, rfl, ?_⟩
  cases fs with
  | nil => rfl
  | cons e es => rfl

/-- Faults of a first part hide those of a second. -/
theorem Agree.bind {dropNext rejectNext : α → Except MalformedSample β} (h : Agree fs drop reject)
    (hnext : ∀ a, Agree gs (dropNext a) (rejectNext a)) :
    Agree (fs ++ gs) (drop >>= dropNext) (reject >>= rejectNext) := by
  obtain ⟨a, rfl, rfl⟩ := h
  obtain ⟨b, hdrop, hreject⟩ := hnext a
  refine ⟨b, hdrop, ?_⟩
  cases fs with
  | nil => exact hreject
  | cons e es => rfl

theorem Agree.mapM {f g : β → Except MalformedSample α} {faults : β → List MalformedSample}
    (h : ∀ x, Agree (faults x) (f x) (g x)) : ∀ l : List β,
      Agree (l.flatMap faults) (l.mapM f) (l.mapM g)
  | [] => ⟨[], rfl, rfl⟩
  | x :: xs => by
      rw [List.mapM_cons, List.mapM_cons, List.flatMap_cons]
      exact (h x).bind fun a => (Agree.mapM h xs).map (a :: ·)

end agree

/-! ### The conversion, part by part -/

section parts
variable (zone : Calendar.Zone)

theorem Snapshot.Sample.check_cases (s : Sample) :
    (∃ p, s.check zone = .ok p ∧ s.faults zone = []) ∨
      ∃ e es, s.check zone = .error e ∧ s.faults zone = e :: es := by
  unfold check faults Timestamp.faults countFaults
  cases s.timestamp.resolve zone with
  | error e => exact Or.inr ⟨e, _, rfl, rfl⟩
  | ok t =>
      by_cases hv : s.value.isValid
      · exact Or.inl ⟨⟨t, s.value⟩, if_pos hv, if_pos hv⟩
      · exact Or.inr ⟨.invalidValue s.timestamp.toText s.value, [], if_neg hv, if_neg hv⟩

theorem checkPoints_agree : ∀ points : List Sample,
    Agree (points.flatMap (Sample.faults zone)) (checkPoints zone .drop points)
      (checkPoints zone .reject points)
  | [] => ⟨[], rfl, rfl⟩
  | s :: ss => by
      have ih := checkPoints_agree ss
      unfold checkPoints
      rw [List.flatMap_cons]
      rcases s.check_cases zone with ⟨p, hs, hf⟩ | ⟨e, es, hs, hf⟩
      · rw [hs, hf]
        exact ih.map (p :: ·)
      · obtain ⟨points, hdrop, -⟩ := ih
        rw [hs, hf]
        exact ⟨points, hdrop, rfl⟩

theorem checkSamples_agree (s : Samples) :
    Agree (s.faults zone) (checkSamples zone .drop s) (checkSamples zone .reject s) := by
  apply (checkPoints_agree zone s.points).bind
  intro points
  unfold checkTotal Snapshot.countFaults
  by_cases h : s.total.isValid
  · rw [if_pos h, if_pos h]
    exact ⟨⟨points, s.total⟩, rfl, rfl⟩
  · rw [if_neg h, if_neg h]
    exact ⟨⟨points, Traffic.zero⟩, rfl, rfl⟩

theorem checkOptional_agree : ∀ stats : Option Samples,
    Agree (Snapshot.optionalFaults zone stats) (checkOptional zone .drop stats)
      (checkOptional zone .reject stats)
  | none => ⟨none, rfl, rfl⟩
  | some s => by
      unfold Snapshot.optionalFaults
      rw [Option.toList_some, List.flatMap_singleton]
      exact (checkSamples_agree zone s).map some

theorem checkRoute_agree (r : Snapshot.Route) :
    Agree (Snapshot.optionalFaults zone r.stats) (checkRoute zone .drop r)
      (checkRoute zone .reject r) :=
  (checkOptional_agree zone r.stats).map _

theorem checkService_agree (v : Snapshot.Service) :
    Agree (v.faults zone) (checkService zone .drop v) (checkService zone .reject v) :=
  (Agree.mapM (checkRoute_agree zone) v.routes).bind fun _ =>
    (checkOptional_agree zone v.stats).map _

end parts

namespace Dashboard
variable (zone : Calendar.Zone) (services : List Snapshot.Service)

theorem ofSnapshot_agree :
    Agree (Snapshot.faults zone services) (ofSnapshot zone .drop services)
      (ofSnapshot zone .reject services) :=
  (Agree.mapM (checkService_agree zone) services).map Dashboard.mk

theorem ofSnapshot_isOk_iff :
    (∃ d, ofSnapshot zone .reject services = .ok d) ↔ Snapshot.WellFormed zone services := by
  obtain ⟨d, -, hreject⟩ := ofSnapshot_agree zone services
  rw [hreject, orFirst_isOk_iff, Snapshot.faults_eq_nil_iff]

end Dashboard

/-- **The first fault decides.**  For every snapshot, dropping succeeds.  Rejecting succeeds
exactly if the snapshot is well formed; it fails with the first of its faults, and without a
fault it gives what dropping gives. -/
theorem Dashboard.ofSnapshot_rejects (zone : Calendar.Zone) (services : List Snapshot.Service) :
    (∃ d, ofSnapshot zone .drop services = .ok d) ∧
      ((∃ d, ofSnapshot zone .reject services = .ok d) ↔ Snapshot.WellFormed zone services) ∧
      ofSnapshot zone .reject services =
        match (Snapshot.faults zone services).head? with
        | none => ofSnapshot zone .drop services
        | some e => .error e := by
  obtain ⟨d, hdrop, hreject⟩ := ofSnapshot_agree zone services
  refine ⟨⟨d, hdrop⟩, ofSnapshot_isOk_iff zone services, ?_⟩
  rw [hreject, hdrop]
  rfl

end RouteTraffic
