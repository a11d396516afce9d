import RouteTraffic.Dashboard
import RouteTraffic.Duration
import RouteTraffic.Series.Recent

/-!
# Settings

How the dashboard draws its charts.  Durations are kept as the text they were written in and
are checked when they are used.
-/

namespace RouteTraffic

/-- How much is logged. -/
inductive LogLevel where
  | error
  | warn
  | info
  | debug
  | trace
  deriving DecidableEq, Repr

namespace LogLevel

/-- The levels from the least to the most that is logged. -/
def all : List LogLevel := [.error, .warn, .info, .debug, .trace]

/-- The name of a level, in capitals. -/
def toText : LogLevel → String
  | .error => "ERROR"
  | .warn => "WARN"
  | .info => "INFO"
  | .debug => "DEBUG"
  | .trace => "TRACE"

/-- Reads a level by its number from one on, or by its name in any ASCII case. -/
def parse? (text : String) : Option LogLevel :=
  match Text.natural? Text.maxUnsigned64 text.toList with
  | .ok n => if n = 0 then none else all[n - 1]?
  | .error _ => all.find? fun l => Text.lowerAscii l.toText.toList == Text.lowerAscii text.toList

/-- The level for a number of requests to say more. -/
def ofVerbosity : Nat → LogLevel
  | 0 => .warn
  | 1 => .info
  | 2 => .debug
  | _ => .trace

end LogLevel

/-- The settings of the dashboard. -/
structure Settings where
  /-- How far back charts reach. -/
  window : String := "10m"
  /-- The expected distance of samples. -/
  interval : String := "60s"
  /-- The width of the moving average. -/
  smoothing : Nat := 3
  onMalformed : SamplePolicy := .drop
  /-- How often a watched file is looked at. -/
  refresh : String := "1s"
  logLevel : Option String := none
  deriving DecidableEq, Repr

namespace Settings

/-- What is wrong with settings. -/
inductive Error where
  /-- They could not be loaded. -/
  | load
  | duration (key : String) (cause : Duration.Error)
  | zero (key : String)
  | logLevel (text : String)
  deriving DecidableEq, Repr

/-- The wording of an error. -/
def Error.message : Error → String
  | .load => "failed to load settings"
  | .duration key cause => "invalid duration for `" ++ key ++ "`: " ++ cause.message
  | .zero key => "`" ++ key ++ "` must be greater than zero"
  | .logLevel text => "unknown log level " ++ Text.quoted text

/-- A duration in nanoseconds. -/
def durationOf (key text : String) : Except Error Nat :=
  match Duration.parse text with
  | .ok n => .ok n
  | .error e => .error (.duration key e)

/-- A duration of at least a millisecond. -/
def spanOf (key text : String) : Except Error Span := do
  let nanos ← durationOf key text
  let span : Span := ⟨nanos⟩
  if span.wholeMillis ≤ 0 then .error (.zero key) else .ok span

/-- How series are shown. -/
def seriesConfig (s : Settings) : Except Error SeriesConfig := do
  let window ← spanOf "window" s.window
  let interval ← spanOf "interval" s.interval
  if s.smoothing = 0 then .error (.zero "smoothing")
  else .ok { window, interval, smoothing := s.smoothing }

/-- The nanoseconds between two looks at a watched file. -/
def refreshNanos (s : Settings) : Except Error Nat := do
  let nanos ← durationOf "refresh" s.refresh
  if nanos = 0 then .error (.zero "refresh") else .ok nanos

/-- The log level, if one is set. -/
def level (s : Settings) : Except Error (Option LogLevel) :=
  match s.logLevel with
  | none => .ok none
  | some text =>
    match LogLevel.parse? text with
    | some l => .ok (some l)
    | none => .error (.logLevel text)

/-- The first problem of all settings, if there is one. -/
def validate (s : Settings) : Except Error Unit := do
  let _ ← s.seriesConfig
  let _ ← s.refreshNanos
  let _ ← s.level
  .ok ()

/-- Settings that were given explicitly. -/
structure Overrides where
  window : Option String := none
  interval : Option String := none
  smoothing : Option Nat := none
  onMalformed : Option SamplePolicy := none
  deriving DecidableEq, Repr

/-- The settings with those that were given explicitly put in. -/
def withOverrides (s : Settings) (o : Overrides) : Settings :=
  { s with
    window := o.window.getD s.window
    interval := o.interval.getD s.interval
    smoothing := o.smoothing.getD s.smoothing
    onMalformed := o.onMalformed.getD s.onMalformed }

end Settings

end RouteTraffic
