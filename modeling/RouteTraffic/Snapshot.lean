import RouteTraffic.Json.Printer
import RouteTraffic.Json.Reader
import RouteTraffic.Json.Shape
import RouteTraffic.Route.Json

/-!
# Snapshots

A snapshot is a document in which a running server reports its services: one service, or a list
of them.  Its timestamps are texts or milliseconds and its counts any numbers; they are checked
when the snapshot is made into dashboard data.
-/

namespace RouteTraffic.Snapshot

open Json

/-- A timestamp as it is written. -/
inductive Timestamp where
  | text (s : String)
  | millis (ms : Int)
  deriving DecidableEq, Repr

/-- One sample. -/
structure Sample where
  timestamp : Timestamp
  value : Traffic Float := Traffic.zero

/-- The samples of a route or a service. -/
structure Samples where
  points : List Sample := []
  total : Traffic Float := Traffic.zero

/-- A route. -/
structure Route where
  key : Option UInt32 := none
  kind : Option String := none
  domain : Option String := none
  port : Option UInt16 := none
  status : Option String := none
  latency : Option Float := none
  stats : Option Samples := none

/-- A service. -/
structure Service where
  id : Option String := none
  name : String := ""
  enabled : Bool := false
  routes : List Route := []
  latency : Option Float := none
  stats : Option Samples := none

/-- A document: several services, or one. -/
inductive Document where
  | many (services : List Service)
  | one (service : Service)

/-- The services of a document, in their order. -/
def Document.services : Document → List Service
  | .many ss => ss
  | .one s => [s]

/-- A timestamp as messages show it. -/
def Timestamp.toText : Timestamp → String
  | .text s => s
  | .millis ms => String.ofList (Text.signedDigits ms) ++ "ms"

/-! ### Reading -/

/-- A text, or a whole number of milliseconds. -/
def Timestamp.shape? : Json → Option Timestamp
  | .text s => some (.text s)
  | .number (.whole ms) => if Text.isSigned64 ms then some (.millis ms) else none
  | _ => none

/-- Two counts, zero where missing. -/
def trafficShape? (j : Json) : Option (Traffic Float) := do
  match ← structure? ["sent", "received"] j with
  | [sent, received] => pure ⟨← orAbsent 0.0 float? sent, ← orAbsent 0.0 float? received⟩
  | _ => none

/-- A sample, whose timestamp must not be missing. -/
def Sample.shape? (j : Json) : Option Sample := do
  match ← structure? ["timestamp", "value"] j with
  | [some timestamp, value] =>
    pure { timestamp := ← Timestamp.shape? timestamp
           value := ← orAbsent Traffic.zero trafficShape? value }
  | _ => none

/-- A list that may be missing or `null`, and then is empty. -/
def emptyable? {α : Type} (shape : Json → Option α) (v : Option Json) : Option (List α) :=
  (optional? (listOf? shape) v).map (·.getD [])

/-- The samples of a route or a service. -/
def Samples.shape? (j : Json) : Option Samples := do
  match ← structure? ["points", "total"] j with
  | [points, total] =>
    pure { points := ← emptyable? Sample.shape? points
           total := ← orAbsent Traffic.zero trafficShape? total }
  | _ => none

/-- A route. -/
def Route.shape? (j : Json) : Option Route := do
  match ← structure? ["key", "type", "domain", "port", "status", "latency", "stats"] j with
  | [key, kind, domain, port, status, latency, stats] =>
    pure { key := (← optional? (nat? (UInt32.size - 1)) key).map UInt32.ofNat
           kind := ← optional? text? kind
           domain := ← optional? text? domain
           port := (← optional? (nat? (UInt16.size - 1)) port).map UInt16.ofNat
           status := ← optional? text? status
           latency := ← optional? float? latency
           stats := ← optional? Samples.shape? stats }
  | _ => none

/-- A service. -/
def Service.shape? (j : Json) : Option Service := do
  match ← structure? ["id", "name", "enabled", "routes", "latency", "stats"] j with
  | [id, name, enabled, routes, latency, stats] =>
    pure { id := ← optional? text? id
           name := ← orAbsent "" text? name
           enabled := ← orAbsent false bool? enabled
           routes := ← emptyable? Route.shape? routes
           latency := ← optional? float? latency
           stats := ← optional? Samples.shape? stats }
  | _ => none

/-- A list of services if it can be taken as one, or else a service. -/
def Document.shape? (j : Json) : Option Document :=
  ((listOf? Service.shape? j).map .many) <|> ((Service.shape? j).map .one)

/-- Reads a document.  Its first value is read as a whole, then its shape is looked at, and only
then the end of the text. -/
def Document.read (text : String) : Except Fault Document := do
  let (v, rest) ← Json.value (Json.tokens text.toList)
  match Document.shape? v with
  | some d => expectEnd (d, rest)
  | none => .error .mismatched

/-! ### Writing -/

/-- A timestamp in its own form. -/
def Timestamp.toJson : Timestamp → Json
  | .text s => .text s
  | .millis ms => .number (.whole ms)

/-- A sample. -/
def Sample.toJson (s : Sample) : Json :=
  .record [("timestamp", s.timestamp.toJson), ("value", s.value.toJson)]

/-- The samples and their total. -/
def Samples.toJson (s : Samples) : Json :=
  .record [("points", .list (s.points.map Sample.toJson)), ("total", s.total.toJson)]

/-- The fields of a route that are present. -/
def Route.toJson (r : Route) : Json :=
  Json.present
    [("key", Json.optionalNat (r.key.map UInt32.toNat)), ("type", r.kind.map .text),
      ("domain", r.domain.map .text), ("port", Json.optionalNat (r.port.map UInt16.toNat)),
      ("status", r.status.map .text), ("latency", r.latency.map Json.ofFloat),
      ("stats", r.stats.map Samples.toJson)]

/-- The fields of a service that are present. -/
def Service.toJson (s : Service) : Json :=
  Json.present
    [("id", s.id.map .text), ("name", some (.text s.name)), ("enabled", some (.bool s.enabled)),
      ("routes", some (.list (s.routes.map Route.toJson))), ("latency", s.latency.map Json.ofFloat),
      ("stats", s.stats.map Samples.toJson)]

/-- A document in the form it was read in. -/
def Document.toJson : Document → Json
  | .many ss => .list (ss.map Service.toJson)
  | .one s => s.toJson

end RouteTraffic.Snapshot
