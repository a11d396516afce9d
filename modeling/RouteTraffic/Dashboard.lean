import RouteTraffic.Snapshot

/-!
# Dashboard data

A snapshot becomes dashboard data by checking every timestamp, count and total once.  What is
malformed is dropped or makes the whole snapshot fail, as the policy says; the error is then
that of the first malformed item in the order of the document.
-/

namespace RouteTraffic

open Snapshot (Sample Samples)

/-- What to do with malformed samples. -/
inductive SamplePolicy where
  | drop
  | reject
  deriving DecidableEq, Repr

namespace SamplePolicy

/-- The name of a policy. -/
def toText : SamplePolicy → String
  | .drop => "drop"
  | .reject => "reject"

/-- The policy with this exact name. -/
def ofText? (name : String) : Option SamplePolicy :=
  [drop, reject].find? fun p => p.toText == name

/-- Reads a policy in any ASCII case with blanks around it; an error names the text. -/
def parse (text : String) : Except String SamplePolicy :=
  let name := String.ofList (Text.lowerAscii (Text.trim text.toList))
  match ofText? name with
  | some p => .ok p
  | none => .error ("unknown sample policy " ++ Text.quoted name ++ " (expected drop or reject)")

/-- The JSON form of a policy. -/
def toJson (p : SamplePolicy) : Json := .text p.toText

/-- Reads a policy by its exact name. -/
def decoder : Json.Decoder SamplePolicy := .name ofText?

end SamplePolicy

/-- What is wrong with a sample or a total. -/
inductive MalformedSample where
  | timestamp (text : String) (fault : Instant.Fault)
  | outOfRange (ms : Int)
  | invalidValue (subject : String) (value : Traffic Float)

/-- The wording of an error. -/
def MalformedSample.message : MalformedSample → String
  | .timestamp text fault => "malformed timestamp " ++ Text.quoted text ++ ": " ++ fault.message
  | .outOfRange ms => "timestamp " ++ String.ofList (Text.signedDigits ms) ++ "ms is out of range"
  | .invalidValue subject value =>
    "invalid byte counts at " ++ subject ++ ": sent=" ++ number value.sent ++ ", received=" ++
      number value.received
where
  number (x : Float) : String := String.ofList (Decimal.plain.render x)

/-- Reads a timestamp text as an instant of whole milliseconds. -/
def parseTimestamp (zone : Calendar.Zone) (text : String) : Except MalformedSample Instant :=
  match Instant.parse zone text with
  | .ok t => .ok t
  | .error fault => .error (.timestamp text fault)

/-- The instant at a number of milliseconds since the epoch. -/
def timestampOfMillis (ms : Int) : Except MalformedSample Instant :=
  match Instant.ofEpochMillis? ms with
  | some t => .ok t
  | none => .error (.outOfRange ms)

/-- The instant that a timestamp stands for. -/
def Snapshot.Timestamp.resolve (zone : Calendar.Zone) : Timestamp → Except MalformedSample Instant
  | .text s => parseTimestamp zone s
  | .millis ms => timestampOfMillis ms

/-- The point of a well-formed sample. -/
def Snapshot.Sample.check (zone : Calendar.Zone) (s : Sample) :
    Except MalformedSample (Point Float) :=
  match s.timestamp.resolve zone with
  | .error e => .error e
  | .ok t =>
    if s.value.isValid then .ok ⟨t, s.value⟩
    else .error (.invalidValue s.timestamp.toText s.value)

/-- The total of a series, if it is well formed. -/
def checkTotal (total : Traffic Float) : Except MalformedSample (Traffic Float) :=
  if total.isValid then .ok total else .error (.invalidValue "total" total)

/-- The points of the well-formed samples. -/
def checkPoints (zone : Calendar.Zone) (policy : SamplePolicy) :
    List Sample → Except MalformedSample (List (Point Float))
  | [] => .ok []
  | s :: ss =>
    match s.check zone, policy with
    | .ok p, _ => (checkPoints zone policy ss).map (p :: ·)
    | .error _, .drop => checkPoints zone policy ss
    | .error e, .reject => .error e

/-- The series of the well-formed samples; a dropped total is zero. -/
def checkSamples (zone : Calendar.Zone) (policy : SamplePolicy) (s : Samples) :
    Except MalformedSample (Series Float) := do
  let points ← checkPoints zone policy s.points
  match checkTotal s.total, policy with
  | .ok total, _ => .ok ⟨points, total⟩
  | .error _, .drop => .ok ⟨points, Traffic.zero⟩
  | .error e, .reject => .error e

/-- The series of optional samples. -/
def checkOptional (zone : Calendar.Zone) (policy : SamplePolicy) :
    Option Samples → Except MalformedSample (Option (Series Float))
  | none => .ok none
  | some s => (checkSamples zone policy s).map some

/-- A checked route. -/
def checkRoute (zone : Calendar.Zone) (policy : SamplePolicy) (r : Snapshot.Route) :
    Except MalformedSample Route :=
  (checkOptional zone policy r.stats).map fun stats =>
    { key := r.key, kind := r.kind, domain := r.domain, port := r.port,
      status := r.status.bind RouteStatus.ofName?, latency := r.latency, stats }

/-- A checked service: its routes come before its own series. -/
def checkService (zone : Calendar.Zone) (policy : SamplePolicy) (s : Snapshot.Service) :
    Except MalformedSample Service := do
  let routes ← s.routes.mapM (checkRoute zone policy)
  let stats ← checkOptional zone policy s.stats
  .ok { id := s.id, name := s.name, enabled := s.enabled, routes, latency := s.latency, stats }

/-- What the dashboard shows: checked services in the order of the snapshot. -/
structure Dashboard where
  services : List Service

namespace Dashboard

/-- Checks a snapshot. -/
def ofSnapshot (zone : Calendar.Zone) (policy : SamplePolicy) (services : List Snapshot.Service) :
    Except MalformedSample Dashboard :=
  (services.mapM (checkService zone policy)).map Dashboard.mk

/-- Why there is no dashboard data. -/
inductive Error where
  /-- The file cannot be read. -/
  | unreadable (path : String)
  | json (fault : Json.Fault)
  | sample (e : MalformedSample)

/-- The wording of an error. -/
def Error.message : Error → String
  | .unreadable path => "Failed to read " ++ path
  | .json _ => "Failed to parse service snapshot"
  | .sample e => e.message

/-- Reads and checks a document. -/
def parse (zone : Calendar.Zone) (policy : SamplePolicy) (text : String) : Except Error Dashboard :=
  match Snapshot.Document.read text with
  | .error f => .error (.json f)
  | .ok d =>
    match ofSnapshot zone policy d.services with
    | .ok data => .ok data
    | .error e => .error (.sample e)

/-- The position of the service with a name, or of the first service. -/
def position? (d : Dashboard) (name : Option String) : Option Nat :=
  match name with
  | some name => d.services.findIdx? (·.name == name)
  | none => if d.services.isEmpty then none else some 0

/-- The service with a name, or the first service. -/
def service? (d : Dashboard) (name : Option String) : Option Service :=
  (d.position? name).bind (d.services[·]?)

end Dashboard

end RouteTraffic
