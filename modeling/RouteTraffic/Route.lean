import RouteTraffic.Series.Summary
import RouteTraffic.Text.Digits
import RouteTraffic.Text.UpperCase

/-!
# Routes and services

A service forwards traffic over routes; each route may report a series of samples.
-/

namespace RouteTraffic

/-- Where a route is in its life. -/
inductive RouteStatus where
  | starting
  | running
  | stopping
  | stopped
  deriving DecidableEq, Repr

namespace RouteStatus

/-- The name of a status. -/
def label : RouteStatus → String
  | .starting => "Starting"
  | .running => "Running"
  | .stopping => "Stopping"
  | .stopped => "Stopped"

/-- All statuses. -/
def all : List RouteStatus := [.starting, .running, .stopping, .stopped]

/-- The status with a name. -/
def ofLabel? (name : String) : Option RouteStatus :=
  all.find? fun s => s.label == name

/-- The status with a name in any ASCII case. -/
def ofName? (name : String) : Option RouteStatus :=
  all.find? fun s => Text.lowerAscii s.label.toList == Text.lowerAscii name.toList

end RouteStatus

/-- A route of a service. -/
structure Route where
  key : Option UInt32 := none
  /-- What is forwarded, such as `tcp` or `https`. -/
  kind : Option String := none
  domain : Option String := none
  port : Option UInt16 := none
  status : Option RouteStatus := none
  /-- The latency in nanoseconds. -/
  latency : Option Float := none
  stats : Option (Series Float) := none

namespace Route

/-- The route reports at least one sample. -/
def hasSamples (r : Route) : Bool :=
  match r.stats with
  | some s => !s.isEmpty
  | none => false

/-- The key by which a route is selected: its own, or else its position. -/
def selectionKey (r : Route) (index : Nat) : UInt32 :=
  r.key.getD (UInt32.ofNat index)

/-- The kind of a route in capitals, `TCP` where none is given. -/
def kindLabel (r : Route) : String :=
  match r.kind.filter (· ≠ "") with
  | some kind => Text.upperCase kind
  | none => "TCP"

/-- The name of a route: its domain, or else its kind and port, or else its position. -/
def label (r : Route) (index : Nat) : String :=
  match r.domain.filter (· ≠ ""), r.port.filter (· ≠ 0) with
  | some domain, _ => domain
  | none, some port => r.kindLabel ++ ":" ++ String.ofList (Text.digits port.toNat)
  | none, none => "Route " ++ String.ofList (Text.digits (index + 1))

end Route

/-- A service and its routes. -/
structure Service where
  id : Option String := none
  name : String := ""
  enabled : Bool := false
  routes : List Route := []
  /-- The latency of the heartbeat in nanoseconds. -/
  latency : Option Float := none
  stats : Option (Series Float) := none

namespace Service

/-- An enabled service without routes. -/
def new (name : String) : Service := { name, enabled := true }

/-- The service with one more route. -/
def withRoute (s : Service) (r : Route) : Service := { s with routes := s.routes ++ [r] }

/-- The number of routes that report samples. -/
def routesWithSamples (s : Service) : Nat := s.routes.countP (·.hasSamples)

end Service

/-- The summary of the routes that report samples. -/
def summarize (routes : List Route) : Series Float :=
  Series.summary (routes.filterMap (·.stats))

end RouteTraffic
