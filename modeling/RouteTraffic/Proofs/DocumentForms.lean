import RouteTraffic.Proofs.ReplacedValues
import RouteTraffic.Proofs.SnapshotShape

/-! # The forms of a document

A document is a list or a record.  A list is several services, unless it begins with a text or
`null`: no service is written like that, but the identifier is that comes first in a service whose
fields are listed in their order (`Snapshot.Service.id_of_shape?`).  Such a list is one service, the
same as the record that names these fields (`Snapshot.Service.shape?_list`). -/

namespace RouteTraffic

open Json

/-! ### Structures as lists -/

namespace Json

/-- Absent fields at the end of a record are not written. -/
theorem present_zip {names : List String} {items : List Json} {absent : List (Option Json)}
    (habsent : ∀ v ∈ absent, v = none) :
    present (names.zip (items.map some ++ absent)) = .record (names.zip items) := by
  rw [present, record.injEq]
  induction items generalizing names with
  | nil =>
      rw [List.zip_nil_right, List.filterMap_eq_nil_iff]
      rintro ⟨name, v⟩ h
      rw [habsent v (List.of_mem_zip h).2]
      rfl
  | cons item items ih =>
      cases names with
      | nil => rfl
      | cons name names => exact congrArg ((name, item) :: ·) ih

/-- A list of fields in the order of their names is the record that names them. -/
theorem structure?_list {names : List String} (hnodup : names.Nodup) {items : List Json}
    (h : items.length ≤ names.length) :
    structure? names (.list items) = structure? names (.record (names.zip items)) := by
  let values := items.map some ++ List.replicate (names.length - items.length) none
  have hlength : values.length = names.length := by
    simp only [values, List.length_append, List.length_map, List.length_replicate]
    omega
  have hnames : (names.zip values).map Prod.fst = names := List.map_fst_zip hlength.ge
  have hvalues : (names.zip values).map Prod.snd = values := List.map_snd_zip hlength.le
  have hpresent := @structure?_present (names.zip values) (by rwa [hnames])
  rw [hnames, hvalues, present_zip fun v hv => List.eq_of_mem_replicate hv] at hpresent
  rw [hpresent]
  exact if_pos h

theorem read_texts {items : List Json} (h : ∀ v ∈ items, v = .null ∨ ∃ s, v = .text s) :
    Json.read (Json.list items).toText = .ok (.list items) := by
  have hlegible : Legible (fun _ => False) 1 (.list items) := by
    refine .list fun v hv => ?_
    rcases h v hv with rfl | ⟨s, rfl⟩
    · exact .null
    · exact .text s
  exact hlegible.read_toText_self (by decide)

end Json

namespace Snapshot

/-! ### Services as lists -/

/-- The list begins with a text or with `null`, as a service does whose fields are listed. -/
def BeginsWithIdentifier (items : List Json) : Prop :=
  ∃ v ∈ items.head?, v = .null ∨ ∃ s, v = .text s

section
variable {items : List Json}

theorem Service.beginsWithIdentifier_of_shape? {s : Service} {w : Json} {ws : List Json}
    (h : Service.shape? (.list (w :: ws)) = some s) : BeginsWithIdentifier (w :: ws) := by
  have hid := Service.id_of_shape? h
  refine ⟨w, rfl, ?_⟩
  cases w with
  | null => exact Or.inl rfl
  | text s => exact Or.inr ⟨s, rfl⟩
  | _ => cases hid

theorem Service.not_beginsWithIdentifier {services : List Service}
    (h : items.mapM Service.shape? = some services) : ¬ BeginsWithIdentifier items := by
  rintro ⟨w, hw, htext⟩
  cases items with
  | nil => cases hw
  | cons v items =>
      obtain rfl : v = w := Option.some.inj hw
      obtain ⟨s, -, hs, -, -⟩ := mapM_cons_eq_some.mp h
      rcases htext with rfl | ⟨text, rfl⟩
      · cases hs
      · cases hs

theorem Service.shape?_list {s : Service} (h : Service.shape? (.list items) = some s) :
    Service.shape? (.record (names.zip items)) = some s := by
  obtain ⟨values, hvalues, -⟩ := Option.bind_eq_some_iff.mp h
  have hlength : items.length ≤ names.length := by
    by_contra hlong
    rw [structure?, if_neg hlong] at hvalues
    cases hvalues
  rw [Service.shape?, ← structure?_list (by decide) hlength]
  exact h

end

/-! ### Documents -/

namespace Document
variable {v : Json} {document : Document}

/-- What a document can be, and how it is then written. -/
theorem form_of_shape? (h : shape? v = some document) :
    (∃ services items, document = .many services ∧ v = .list items ∧ ¬ BeginsWithIdentifier items) ∨
      (∃ service fields, document = .one service ∧ v = .record fields) ∨
      ∃ service items, document = .one service ∧ v = .list items ∧ BeginsWithIdentifier items ∧
        Service.shape? v = some service := by
  cases document with
  | many services =>
      have hservices := shape?_eq_many.mp h
      cases v with
      | list items =>
          exact Or.inl ⟨services, items, rfl, rfl, Service.not_beginsWithIdentifier hservices⟩
      | _ => cases hservices
  | one service =>
      obtain ⟨hnone, hservice⟩ := shape?_eq_one.mp h
      obtain ⟨items, rfl⟩ | ⟨fields, rfl⟩ := Service.isNested_of_shape? hservice
      · cases items with
        | nil => cases hnone
        | cons w ws =>
            exact Or.inr (Or.inr ⟨service, w :: ws, rfl, rfl,
              Service.beginsWithIdentifier_of_shape? hservice, hservice⟩)
      · exact Or.inr (Or.inl ⟨service, fields, rfl, rfl⟩)

/-- **The forms of a document.**  A text that is read as a document is a list or a record.  It is
several services if it is a list that does not begin with a text or `null`.  It is one service if it
is a record, or a list that does begin so; the list then holds the fields of the service in their
order, and the record that names them is the same document. -/
theorem read_forms {text : String} (h : Document.read text = .ok document) :
    ∃ v, Json.read text = .ok v ∧
      ((∃ services, document = .many services) ↔
        ∃ items, v = .list items ∧ ¬ BeginsWithIdentifier items) ∧
      ((∃ service, document = .one service) ↔
        (∃ fields, v = .record fields) ∨ ∃ items, v = .list items ∧ BeginsWithIdentifier items) ∧
      ∀ items, v = .list items → BeginsWithIdentifier items →
        shape? (.record (Service.names.zip items)) = some document := by
  obtain ⟨v, hv, hshape⟩ := exists_of_read h
  refine ⟨v, hv, ?_⟩
  obtain ⟨services, items, rfl, rfl, hnot⟩ | ⟨service, fields, rfl, rfl⟩ |
    ⟨service, items, rfl, rfl, hbegins, hservice⟩ := form_of_shape? hshape
  · simp [hnot]
  · simp
  · have hrecord : shape? (.record (Service.names.zip items)) = some (.one service) :=
      shape?_eq_one.mpr ⟨rfl, Service.shape?_list hservice⟩
    simp [hbegins, hrecord]

/-- An identifier and a name without the names of their fields. -/
theorem read_forms_unnamed :
    let text := "[\"svc-1\",\"grafana\"]"
    let items : List Json := [.text "svc-1", .text "grafana"]
    let document : Document := .one { id := some "svc-1", name := "grafana" }
    Json.read text = .ok (.list items) ∧ read text = .ok document ∧ BeginsWithIdentifier items ∧
      shape? (.record [("id", .text "svc-1"), ("name", .text "grafana")]) = some document := by
  intro text items document
  have htext : (Json.list items).toText = text := by decide
  have hread : Json.read text = .ok (.list items) := by
    rw [← htext]
    exact read_texts (by simp [items])
  have hdocument : read text = .ok document := read_of_read hread
  obtain ⟨v, hv, -, hone, hnamed⟩ := read_forms hdocument
  obtain rfl := Except.ok.inj (hread.symm.trans hv)
  obtain ⟨fields, hfields⟩ | ⟨items', hitems, hbegins⟩ := hone.mp ⟨_, rfl⟩
  · cases hfields
  · cases hitems
    exact ⟨hread, hdocument, hbegins, hnamed items rfl hbegins⟩

/-- A list with `null` in the place of a service is no list of services, but a service. -/
theorem read_null_in_list :
    Json.read "[null]" = .ok (.list [.null]) ∧ Document.read "[null]" = .ok (.one {}) := by
  have htext : (Json.list [.null]).toText = "[null]" := by decide
  have hread : Json.read "[null]" = .ok (.list [.null]) := by
    rw [← htext]
    exact read_texts (by simp)
  exact ⟨hread, read_of_read hread⟩

end Document

end Snapshot

end RouteTraffic
