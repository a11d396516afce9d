import RouteTraffic.Recorder
import RouteTraffic.Route

/-!
# Registries

A registry keeps one recorder for each registered route.  Registering gives out a handle, and
a handle goes on writing into the recorder it was given for, also after the route has been
unregistered; a later registration of the route starts with a new recorder.  Recorders
therefore have an identity of their own: their number in the order of creation.
-/

namespace RouteTraffic

/-- The right to record for a route: its key and the number of its recorder. -/
structure RouteHandle where
  key : UInt32
  recorder : Nat
  deriving DecidableEq, Repr

/-- Recorders by number, and the number of the recorder of each registered key, keys ascending. -/
structure Registry where
  config : RecorderConfig
  recorders : Array (Recorder Float) := #[]
  registered : List (UInt32 × Nat) := []

namespace Registry

/-- The recorder with a number. -/
def recorder (r : Registry) (n : Nat) : Recorder Float :=
  r.recorders.getD n { config := r.config }

/-- Enters a key among ascending keys. -/
def enter (key : UInt32) (n : Nat) : List (UInt32 × Nat) → List (UInt32 × Nat)
  | [] => [(key, n)]
  | (k, m) :: rest =>
    if key < k then (key, n) :: (k, m) :: rest
    else if key = k then (key, n) :: rest
    else (k, m) :: enter key n rest

/-- The handle of a key, which is registered with a new recorder if it was not. -/
def register (r : Registry) (key : UInt32) : Registry × RouteHandle :=
  match r.registered.lookup key with
  | some n => (r, ⟨key, n⟩)
  | none =>
    let n := r.recorders.size
    ({ r with
        recorders := r.recorders.push { config := r.config }
        registered := enter key n r.registered }, ⟨key, n⟩)

/-- Takes a key out, and tells whether it was registered. -/
def unregister (r : Registry) (key : UInt32) : Registry × Bool :=
  ({ r with registered := r.registered.filter fun e => e.1 != key },
    (r.registered.lookup key).isSome)

/-- Records a sample through a handle. -/
def record (r : Registry) (h : RouteHandle) (t : Instant) (v : Traffic Float) : Registry :=
  { r with recorders := r.recorders.modify h.recorder fun rec => rec.record t v }

/-- Records bytes sent at this moment through a handle. -/
def recordSent (r : Registry) (h : RouteHandle) (now : Instant) (bytes : UInt64) : Registry :=
  { r with recorders := r.recorders.modify h.recorder fun rec => rec.recordSent now bytes }

/-- Records bytes received at this moment through a handle. -/
def recordReceived (r : Registry) (h : RouteHandle) (now : Instant) (bytes : UInt64) : Registry :=
  { r with recorders := r.recorders.modify h.recorder fun rec => rec.recordReceived now bytes }

/-- What the recorder of a handle has gathered. -/
def snapshot (r : Registry) (h : RouteHandle) : Series Float :=
  (r.recorder h.recorder).snapshot

/-- What the registered recorders have gathered, keys ascending. -/
def collect (r : Registry) : List (UInt32 × Series Float) :=
  r.registered.map fun (key, n) => (key, (r.recorder n).snapshot)

/-- The registered routes. -/
def routes (r : Registry) : List Route :=
  r.collect.map fun (key, series) => { key := some key, stats := some series }

/-- All registered series in one, points of the same instant staying apart. -/
def combined (r : Registry) : Series Float :=
  (r.collect.map (·.2)).foldl Series.concat .empty

end Registry

end RouteTraffic
