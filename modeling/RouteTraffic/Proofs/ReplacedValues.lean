import RouteTraffic.Proofs.JsonRoundTrip
import RouteTraffic.Proofs.SamplePlaces

/-! # One value of a sample replaced

A timestamp may be replaced by any text and by any whole number of 64 bits, and a count by any
number: the lenient policy then shows the same dashboard around the point of the new sample, and
without a point if it is malformed.  Any other value there makes the document unreadable, so that no
policy accepts it (`Dashboard.parse_replaced`). -/

namespace RouteTraffic

open Json

/-! ### The shape of samples -/

namespace Snapshot
variable {f : Json → Json} {v : Json}

/-- The timestamp and the counts of a sample are read by themselves. -/
theorem Sample.shape?_split {s : Sample} (h : Sample.shape? v = some s) :
    ∃ timestamp value, structure? ["timestamp", "value"] v = some [some timestamp, value] ∧
      Timestamp.shape? timestamp = some s.timestamp ∧
      orAbsent Traffic.zero trafficShape? value = some s.value ∧
      ∀ {w timestamp' : Json} {value'},
        structure? ["timestamp", "value"] w = some [some timestamp', value'] →
        Sample.shape? w = (Timestamp.shape? timestamp').bind fun t =>
          (orAbsent Traffic.zero trafficShape? value').map (Sample.mk t) := by
  obtain ⟨values, hvalues, h⟩ := Option.bind_eq_some_iff.mp h
  match values, length_of_structure? hvalues with
  | [none, value], _ => cases h
  | [some timestamp, value], _ =>
    simp only [Option.bind_eq_bind, Option.bind_eq_some_iff, Option.pure_def,
      Option.some.injEq] at h
    obtain ⟨_, htimestamp, _, hvalue, rfl⟩ := h
    refine ⟨timestamp, value, hvalues, htimestamp, hvalue, fun hw => ?_⟩
    simp only [Sample.shape?, hw, Option.bind_eq_bind, Option.bind_some, Option.map_eq_bind]
    rfl

theorem Sample.shape?_timestamp {s : Sample}
    (hf : FieldPlace ["timestamp", "value"] "timestamp" f)
    (hread : Sample.shape? (f v) = some s) (w : Json) :
    Sample.shape? (f w) = (Timestamp.shape? w).map fun t => { s with timestamp := t } := by
  obtain ⟨_, _, hvalues, -, hvalue, hshape⟩ := Sample.shape?_split hread
  obtain ⟨-, hfields⟩ := structure?_field hf (by decide) hvalues
  rw [hshape (hfields w), hvalue]
  exact (Option.map_eq_bind ..).symm

theorem Sample.shape?_value {s : Sample} (hf : FieldPlace ["timestamp", "value"] "value" f)
    (hread : Sample.shape? (f v) = some s) :
    trafficShape? v = some s.value ∧
      ∀ w, Sample.shape? (f w) = (trafficShape? w).map fun t => { s with value := t } := by
  obtain ⟨_, _, hvalues, htimestamp, -, hshape⟩ := Sample.shape?_split hread
  obtain ⟨-, hfields⟩ := structure?_field hf (by decide) hvalues
  have hplace (w : Json) : Sample.shape? (f w) =
      (trafficShape? w).map fun t => { s with value := t } := by
    rw [hshape (hfields w), htimestamp]
    rfl
  obtain ⟨t, ht, hs⟩ := Option.map_eq_some_iff.mp ((hplace v).symm.trans hread)
  obtain rfl : t = s.value := congrArg Sample.value hs
  exact ⟨ht, hplace⟩

/-- The counts from their list, in which the sent ones come first. -/
def countsOf? : List Float → Option (Traffic Float)
  | [sent, received] => some ⟨sent, received⟩
  | _ => none

theorem trafficShape?_eq (v : Json) : trafficShape? v =
    ((structure? ["sent", "received"] v).bind (·.mapM (orAbsent 0.0 float?))).bind countsOf? := by
  rw [trafficShape?, Option.bind_assoc]
  refine Option.bind_congr fun values hvalues => ?_
  match values, length_of_structure? hvalues with
  | [sent, received], _ =>
    simp only [List.mapM_cons, List.mapM_nil, Option.bind_eq_bind, Option.pure_def]
    cases orAbsent 0.0 float? sent <;> cases orAbsent 0.0 float? received <;> rfl

/-- Both counts are read alike, each into its own position. -/
theorem trafficShape?_count {name : String} (hname : name ∈ ["sent", "received"])
    (hf : FieldPlace ["sent", "received"] name f) {t : Traffic Float}
    (hread : trafficShape? (f v) = some t) (w : Json) :
    trafficShape? (f w) = (float? w).bind fun x =>
      countsOf? ([t.sent, t.received].set (["sent", "received"].idxOf name) x) := by
  rw [trafficShape?_eq] at hread ⊢
  obtain ⟨counts, hcounts, ht⟩ := Option.bind_eq_some_iff.mp hread
  obtain ⟨values, hvalues, hreads⟩ := Option.bind_eq_some_iff.mp hcounts
  obtain ⟨hlength, hfields⟩ := structure?_field hf (by decide) hvalues
  obtain rfl : counts = [t.sent, t.received] := by
    unfold countsOf? at ht
    split at ht
    · rw [← Option.some.inj ht]
    · cases ht
  have hindex : ["sent", "received"].idxOf name < values.length :=
    hlength ▸ List.idxOf_lt_length_of_mem hname
  rw [hfields w, Option.bind_some, mapM_set hreads hindex, Option.bind_map]
  rfl

end Snapshot

/-! ### Values of samples -/

/-- A value of a sample. -/
inductive SampleField where
  | timestamp
  | sent
  | received

namespace SampleField
open Snapshot (Sample Timestamp trafficShape?_count)

/-- The place of the value in a sample. -/
inductive Place : SampleField → (Json → Json) → Prop where
  | timestamp {f : Json → Json} (hf : FieldPlace ["timestamp", "value"] "timestamp" f) :
      Place .timestamp f
  | sent {f g : Json → Json} (hf : FieldPlace ["timestamp", "value"] "value" f)
      (hg : FieldPlace ["sent", "received"] "sent" g) : Place .sent fun v => f (g v)
  | received {f g : Json → Json} (hf : FieldPlace ["timestamp", "value"] "value" f)
      (hg : FieldPlace ["sent", "received"] "received" g) : Place .received fun v => f (g v)

/-- A value that can be read there. -/
def Accepts : SampleField → Json → Prop
  | .timestamp, v => (∃ s, v = .text s) ∨ ∃ ms, v = .number (.whole ms) ∧ Text.isSigned64 ms = true
  | .sent, v => ∃ n, v = .number n
  | .received, v => ∃ n, v = .number n

/-- The sample with what is read of a value in its place. -/
def replace? : SampleField → Json → Sample → Option Sample
  | .timestamp, v, s => (Timestamp.shape? v).map fun t => { s with timestamp := t }
  | .sent, v, s => (float? v).map fun x => { s with value := ⟨x, s.value.received⟩ }
  | .received, v, s => (float? v).map fun x => { s with value := ⟨s.value.sent, x⟩ }

theorem replace?_isSome_iff (field : SampleField) (v : Json) (s : Sample) :
    (field.replace? v s).isSome = true ↔ field.Accepts v := by
  cases field with
  | timestamp =>
      rw [replace?, Option.isSome_map]
      cases v with
      | number n => cases n <;> simp [Timestamp.shape?, Accepts]
      | _ => simp [Timestamp.shape?, Accepts]
  | sent => cases v <;> simp [replace?, float?, Accepts]
  | received => cases v <;> simp [replace?, float?, Accepts]

theorem Place.shape?_replace {field : SampleField} {place : Json → Json} {v : Json}
    {sample : Sample} (h : field.Place place) (hread : Sample.shape? (place v) = some sample)
    (w : Json) : Sample.shape? (place w) = field.replace? w sample := by
  cases h with
  | timestamp hf => exact Sample.shape?_timestamp hf hread w
  | sent hf hg =>
      obtain ⟨hvalue, hshape⟩ := Sample.shape?_value hf hread
      rw [hshape, trafficShape?_count (by simp) hg hvalue, replace?]
      cases float? w <;> rfl
  | received hf hg =>
      obtain ⟨hvalue, hshape⟩ := Sample.shape?_value hf hread
      rw [hshape, trafficShape?_count (by simp) hg hvalue, replace?]
      cases float? w <;> rfl

end SampleField

/-! ### Whole documents -/

/-- A text that is JSON is a document if it has the shape of one. -/
theorem Snapshot.Document.read_of_read {text : String} {v : Json} (h : Json.read text = .ok v) :
    Document.read text =
      match Document.shape? v with
      | some d => .ok d
      | none => .error .mismatched := by
  obtain ⟨⟨v', rest⟩, hvalue, hend⟩ := bind_eq_ok h
  rw [expectEnd] at hend
  split_ifs at hend with hempty
  obtain rfl : v' = v := Except.ok.inj hend
  rw [Document.read, hvalue]
  show (match Document.shape? v' with
    | some d => expectEnd (d, rest)
    | none => .error .mismatched) = _
  cases Document.shape? v' with
  | none => rfl
  | some d => exact if_pos hempty

theorem Snapshot.Document.exists_of_read {text : String} {document : Document}
    (h : Document.read text = .ok document) :
    ∃ v, Json.read text = .ok v ∧ Document.shape? v = some document := by
  obtain ⟨⟨v, rest⟩, hvalue, h⟩ := bind_eq_ok h
  cases hshape : Document.shape? v with
  | none =>
      simp only [hshape] at h
      cases h
  | some d =>
      simp only [hshape, expectEnd] at h
      split_ifs at h with hempty
      obtain rfl : d = document := Except.ok.inj h
      refine ⟨v, ?_, hshape⟩
      rw [Json.read, hvalue]
      exact if_pos hempty

namespace Dashboard

theorem exists_parse_drop (zone : Calendar.Zone) {text : String} {document : Snapshot.Document}
    (h : Snapshot.Document.read text = .ok document) : ∃ d, parse zone .drop text = .ok d := by
  obtain ⟨d, hd, -⟩ := ofSnapshot_agree zone document.services
  refine ⟨d, ?_⟩
  rw [parse, h]
  simp only [hd]

/-- A sample with this timestamp. -/
def stamped (timestamp : Json) : Json := .record [("timestamp", timestamp)]

/-- A service with this sample and a second one. -/
def besideEpoch (sample : Json) : Json :=
  .record [("stats", .record [("points", .list [sample, stamped (.number (.whole 0))])])]

theorem stamped_place : SampleField.timestamp.Place stamped := .timestamp (.named [] [])

theorem besideEpoch_place (service : Snapshot.Service) :
    (Snapshot.Document.one service).Place besideEpoch := by
  have hitem : ItemPlace fun v => .list [v, stamped (.number (.whole 0))] := .mk [] _
  have hpoints : Snapshot.Samples.Place fun v =>
      .record [("points", .list [v, stamped (.number (.whole 0))])] := .mk (.named [] []) hitem
  have hstats : FieldPlace Snapshot.Service.names "stats" fun v => .record [("stats", v)] :=
    .named [] []
  have hplace := Snapshot.Service.Place.own hstats hpoints
  exact .one service hplace

theorem read_besideEpoch {v : Json} (h : Legible (fun _ => False) 0 v) :
    Json.read (besideEpoch (stamped v)).toText = .ok (besideEpoch (stamped v)) := by
  have hlegible : Legible (fun _ => False) 4 (besideEpoch (stamped v)) := by
    refine .record (List.forall_mem_singleton.mpr (.record (List.forall_mem_singleton.mpr ?_)))
    refine .list (List.forall_mem_cons.mpr ⟨?_, List.forall_mem_singleton.mpr ?_⟩)
    · exact .record (List.forall_mem_singleton.mpr h)
    · exact .record (List.forall_mem_singleton.mpr (.number ⟨by decide, by decide⟩))
  exact hlegible.read_toText_self (by decide)

theorem shape?_besideEpoch : ∃ service, Snapshot.Document.shape?
    (besideEpoch (stamped (.number (.whole 1)))) = some (.one service) := ⟨_, rfl⟩

end Dashboard

end RouteTraffic
