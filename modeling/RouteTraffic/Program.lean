import RouteTraffic.CommandLine
import RouteTraffic.FileSource
import RouteTraffic.Settings.Layers

/-!
# The program

The program draws the chart of a service in a snapshot file: it prints the chart, writes it to a
file, or prints it again whenever the snapshot changes.  What it does to files is left open, so
that it runs on the file system as well as on a folder in memory.
-/

namespace RouteTraffic.Program

open CommandLine

/-- What the program does to files. -/
structure Files (m : Type → Type) where
  /-- The text of a file. -/
  readText : String → m (Except ReadFailure String)
  /-- There is a file with this name. -/
  isFile : String → m Bool
  /-- Replaces the content of a file, and tells whether that was possible. -/
  write : String → String → m Bool

/-- What the program knows about its surroundings. -/
structure Surroundings where
  environment : List (String × String)
  zone : Calendar.Zone
  now : Instant

/-- How a run of the program ends. -/
inductive Outcome where
  /-- It printed a text. -/
  | printed (text : String)
  /-- It failed with a message. -/
  | failed (message : String)
  /-- It was not asked for anything that it can do. -/
  | stopped (s : Stop)
  /-- It goes on watching a file. -/
  | watching (a : Arguments) (policy : SamplePolicy) (config : SeriesConfig) (refreshNanos : Nat)

/-- The number that the system gets at the end. -/
def Outcome.exitCode : Outcome → Nat
  | .printed _ => 0
  | .failed _ => 1
  | .stopped .help => 0
  | .stopped .usage => 2
  | .watching .. => 0

/-! ### Drawing -/

/-- A text on the left of a column. -/
def padRight (width : Nat) (s : String) : String :=
  s ++ String.ofList (List.replicate (width - s.length) ' ')

/-- A text on the right of a column. -/
def padLeft (width : Nat) (s : String) : String :=
  String.ofList (List.replicate (width - s.length) ' ') ++ s

/-- A line of the table. -/
def tableLine (row : String × String × String) : String :=
  padRight 10 row.1 ++ padLeft 12 row.2.1 ++ padLeft 12 row.2.2 ++ "\n"

/-- The latency of what a selection shows. -/
def latency (s : Service) : Selection → Option Float
  | .all => s.latency
  | .route key => (findRoute? s.routes key).bind (·.1.latency)

/-- The chart as text: a heading, the totals, and a table of the points. -/
def renderText (s : Service) (selection : Selection) (zone : Calendar.Zone) (c : Chart) : String :=
  let heading := s.name ++ " (" ++ c.label ++ ")\n"
  let totals := "total sent " ++ c.totalSent ++ "  received " ++ c.totalReceived ++ "  latency " ++
    Duration.format (latency s selection) ++ "\n"
  let table :=
    if c.isEmpty then "no traffic in window\n"
    else tableLine ("TIME", "SENT", "RECEIVED") ++ String.join ((c.rows zone).map tableLine)
  heading ++ totals ++ table

/-- The chart in a format. -/
def render (s : Service) (a : Arguments) (around : Surroundings) (config : SeriesConfig) : String :=
  let chart := Chart.build s.routes a.route around.now config
  match a.format with
  | .json => chart.toJson.toLines ++ "\n"
  | .text => renderText s a.route around.zone chart

/-- The service to draw, or why there is none. -/
def findService (d : Dashboard) (name : Option String) : Except String Service :=
  match d.service? name, name with
  | some s, _ => .ok s
  | none, some name => .error ("Service " ++ Text.quoted name ++ " not found")
  | none, none => .error "Snapshot contains no services"

/-! ### Running -/

/-- The path up to the last part that names something, unless that part goes up. -/
def namedPath? (path : String) : Option String :=
  match (path.splitOn "/").reverse.dropWhile fun p => p = "" || p = "." with
  | [] => none
  | name :: parents =>
    if name = ".." then none else some ("/".intercalate (name :: parents).reverse)

section

variable {m : Type → Type} [Monad m] (files : Files m)

/-- The settings file that a path stands for: the file itself, or the file with the path and one
of the known endings. -/
def settingsFile (path : String) : m (String × Option String) := do
  let extended :=
    match namedPath? path with
    | some p => [p ++ ".toml", p ++ ".json"]
    | none => []
  let candidates := path :: extended
  let found ← candidates.filterM files.isFile
  let path := found.headD path
  let content ← files.readText path
  pure (path, content.toOption)

/-- The settings from the file, the environment and the arguments. -/
def loadSettings (a : Arguments) (around : Surroundings) : m (Except Settings.Error Settings) := do
  let file ←
    match a.config with
    | none => pure none
    | some path => some <$> settingsFile files path
  pure do
    let s := (← Settings.load file around.environment).withOverrides a.overrides
    s.validate
    .ok s

/-- The dashboard data in a file. -/
def loadDashboard (path : String) (zone : Calendar.Zone) (policy : SamplePolicy) :
    m (Except Dashboard.Error Dashboard) := do
  match ← files.readText path with
  | .error _ => pure (.error (.unreadable path))
  | .ok text => pure (Dashboard.parse zone policy text)

/-- Draws the chart of the arguments, on the screen or into a file. -/
def draw (a : Arguments) (around : Surroundings) (policy : SamplePolicy) (config : SeriesConfig) :
    m Outcome := do
  match ← loadDashboard files a.file around.zone policy with
  | .error e => pure (.failed e.message)
  | .ok data =>
    match findService data a.service with
    | .error message => pure (.failed message)
    | .ok service =>
      match a.exportTo with
      | none => pure (.printed (render service a around config))
      | some path =>
        let chart := Chart.build service.routes a.route around.now config
        if ← files.write path chart.toJson.toLines then
          pure (.printed ("Exported chart view to: " ++ path ++ "\n"))
        else pure (.failed ("Failed to write " ++ path))

/-- Runs the program up to its end, or to where it begins to watch. -/
def run (args : List String) (around : Surroundings) : m Outcome := do
  match CommandLine.read args with
  | .error s => pure (.stopped s)
  | .ok a =>
    match ← loadSettings files a around with
    | .error e => pure (.failed e.message)
    | .ok settings =>
      match settings.seriesConfig, settings.refreshNanos with
      | .error e, _ => pure (.failed e.message)
      | .ok config, refresh =>
        if a.watch then
          match refresh with
          | .error e => pure (.failed e.message)
          | .ok refresh => pure (.watching a settings.onMalformed config refresh)
        else draw files a around settings.onMalformed config

end

/-! ### Watching -/

/-- What is known while a file is watched: the source, and the data drawn last. -/
structure Watch where
  source : FileSource
  current : Option Dashboard := none

/-- The watch on a file before its first look. -/
def Watch.start (a : Arguments) : Watch := { source := { path := a.file } }

/-- The watch after a poll: a snapshot that passes the checks becomes the current one. -/
def Watch.update (w : Watch) (zone : Calendar.Zone) (policy : SamplePolicy)
    (polled : FileSource × Option (List Snapshot.Service)) : Watch :=
  match polled.2.map (Dashboard.ofSnapshot zone policy) with
  | some (.ok data) => { source := polled.1, current := some data }
  | _ => { w with source := polled.1 }

/-- What is printed of the current data. -/
def Watch.frame (w : Watch) (a : Arguments) (around : Surroundings) (config : SeriesConfig) :
    String :=
  match w.current with
  | none => ""
  | some data =>
    match findService data a.service with
    | .ok service => render service a around config
    | .error _ => ""

end RouteTraffic.Program
