import RouteTraffic.Chart
import RouteTraffic.Instant.Parser
import RouteTraffic.Json.Decoder
import RouteTraffic.Json.Printer

/-!
# The JSON forms of routes and services

How points, series, routes, services and charts are written as JSON, and how all but charts are
read back.  Fields that are absent are left out; a field that is missing has its default value.
Instants are strings at full precision.
-/

namespace RouteTraffic

open Json

/-- A record of those fields that are present. -/
def Json.present (fields : List (String × Option Json)) : Json :=
  .record (fields.filterMap fun (k, v) => v.map (k, ·))

/-- A natural number as an optional value. -/
def Json.optionalNat (n : Option Nat) : Option Json := n.map Json.ofNat

/-! ### Writing -/

/-- The two counts. -/
def Traffic.toJson (t : Traffic Float) : Json :=
  .record [("sent", Json.ofFloat t.sent), ("received", Json.ofFloat t.received)]

/-- The instant and the counts. -/
def Point.toJson (p : Point Float) : Json :=
  .record [("timestamp", .text p.time.toText), ("value", p.value.toJson)]

/-- The points and the total. -/
def Series.toJson (s : Series Float) : Json :=
  .record [("points", .list (s.points.map Point.toJson)), ("total", s.total.toJson)]

/-- The name of the status. -/
def RouteStatus.toJson (s : RouteStatus) : Json := .text s.label

/-- The fields of a route that are present. -/
def Route.toJson (r : Route) : Json :=
  Json.present
    [("key", Json.optionalNat (r.key.map UInt32.toNat)), ("type", r.kind.map .text),
      ("domain", r.domain.map .text), ("port", Json.optionalNat (r.port.map UInt16.toNat)),
      ("status", r.status.map RouteStatus.toJson), ("latency", r.latency.map Json.ofFloat),
      ("stats", r.stats.map Series.toJson)]

/-- The fields of a service that are present. -/
def Service.toJson (s : Service) : Json :=
  Json.present
    [("id", s.id.map .text), ("name", some (.text s.name)), ("enabled", some (.bool s.enabled)),
      ("routes", some (.list (s.routes.map Route.toJson))), ("latency", s.latency.map Json.ofFloat),
      ("stats", s.stats.map Series.toJson)]

/-- The label, the points and the totals as text. -/
def Chart.toJson (c : Chart) : Json :=
  .record
    [("label", .text c.label), ("points", .list (c.points.map Point.toJson)),
      ("total_sent", .text c.totalSent), ("total_received", .text c.totalReceived)]

/-! ### Reading -/

/-- The two counts, zero where missing. -/
def Traffic.decoder : Decoder (Traffic Float) :=
  .object
    [.optional "sent" .float fun x t => { t with sent := x },
      .optional "received" .float fun x t => { t with received := x }]
    Traffic.zero

/-- An instant at full precision. -/
def Instant.decoder : Decoder Instant :=
  Decoder.text.filterMap Instant.parseLenient?

/-- A point, of which nothing may be missing. -/
def Point.decoder : Decoder (Point Float) :=
  .object
    [.required "timestamp" Instant.decoder fun t p => { p with time := t },
      .required "value" Traffic.decoder fun v p => { p with value := v }]
    ⟨.first, Traffic.zero⟩

/-- A series, empty where its fields are missing. -/
def Series.decoder : Decoder (Series Float) :=
  .object
    [.optional "points" (.list Point.decoder) fun ps s => { s with points := ps },
      .optional "total" Traffic.decoder fun t s => { s with total := t }]
    Series.empty

/-- A status by its exact name. -/
def RouteStatus.decoder : Decoder RouteStatus :=
  .name RouteStatus.ofLabel?

/-- A route. -/
def Route.decoder : Decoder Route :=
  .object
    [.optional "key" (.nullable (.nat (UInt32.size - 1))) fun n r =>
        { r with key := n.map UInt32.ofNat },
      .optional "type" (.nullable .text) fun s r => { r with kind := s },
      .optional "domain" (.nullable .text) fun s r => { r with domain := s },
      .optional "port" (.nullable (.nat (UInt16.size - 1))) fun n r =>
        { r with port := n.map UInt16.ofNat },
      .optional "status" (.nullable RouteStatus.decoder) fun s r => { r with status := s },
      .optional "latency" (.nullable .float) fun x r => { r with latency := x },
      .optional "stats" (.nullable Series.decoder) fun s r => { r with stats := s }]
    {}

/-- A service. -/
def Service.decoder : Decoder Service :=
  .object
    [.optional "id" (.nullable .text) fun s v => { v with id := s },
      .optional "name" .text fun s v => { v with name := s },
      .optional "enabled" .bool fun b v => { v with enabled := b },
      .optional "routes" (.list Route.decoder) fun rs v => { v with routes := rs },
      .optional "latency" (.nullable .float) fun x v => { v with latency := x },
      .optional "stats" (.nullable Series.decoder) fun s v => { v with stats := s }]
    {}

end RouteTraffic
