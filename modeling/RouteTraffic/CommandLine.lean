import RouteTraffic.Selection
import RouteTraffic.Settings

/-!
# The command line

The arguments of the program: long options with their value after `=` or in the next argument,
and short ones that may stand together behind one dash.  An option is given once at most,
except for the one that asks to log more.
-/

namespace RouteTraffic.CommandLine

/-- How a chart is written. -/
inductive OutputFormat where
  | text
  | json
  deriving DecidableEq, Repr

/-- What the arguments ask for. -/
structure Arguments where
  /-- The snapshot. -/
  file : String := "services.json"
  /-- The settings file. -/
  config : Option String := none
  service : Option String := none
  route : Selection := .all
  overrides : Settings.Overrides := {}
  format : OutputFormat := .text
  /-- Where the chart is written instead of printing it. -/
  exportTo : Option String := none
  watch : Bool := false
  verbosity : Nat := 0
  deriving DecidableEq, Repr

/-- The options. -/
inductive Flag where
  | file
  | config
  | service
  | route
  | window
  | interval
  | smoothing
  | onMalformed
  | format
  | exportTo
  | watch
  | verbose
  | help
  deriving DecidableEq, Repr

/-- The long name of an option. -/
def Flag.long : Flag → String
  | .file => "file"
  | .config => "config"
  | .service => "service"
  | .route => "route"
  | .window => "window"
  | .interval => "interval"
  | .smoothing => "smoothing"
  | .onMalformed => "on-malformed"
  | .format => "format"
  | .exportTo => "export"
  | .watch => "watch"
  | .verbose => "verbose"
  | .help => "help"

/-- The letter of an option, if it has one. -/
def Flag.short? : Flag → Option Char
  | .file => some 'f'
  | .config => some 'c'
  | .service => some 's'
  | .route => some 'r'
  | .exportTo => some 'e'
  | .watch => some 'w'
  | .verbose => some 'v'
  | .help => some 'h'
  | .window | .interval | .smoothing | .onMalformed | .format => none

/-- All options. -/
def Flag.all : List Flag :=
  [.file, .config, .service, .route, .window, .interval, .smoothing, .onMalformed, .format,
    .exportTo, .watch, .verbose, .help]

/-- The option is given with a value. -/
def Flag.takesValue : Flag → Bool
  | .watch | .verbose | .help => false
  | _ => true

/-- Why there are no arguments to act on. -/
inductive Stop where
  /-- The arguments are wrong. -/
  | usage
  /-- Help was asked for. -/
  | help
  deriving DecidableEq, Repr

/-- A value that must not be empty. -/
def nonEmpty? (value : String) : Option String :=
  if value = "" then none else some value

/-- The format with a name. -/
def format? (name : String) : Option OutputFormat :=
  if name = "text" then some .text else if name = "json" then some .json else none

/-- The arguments with the value of an option. -/
def store? (a : Arguments) (flag : Flag) (value : String) : Option Arguments :=
  match flag with
  | .file => (nonEmpty? value).map fun v => { a with file := v }
  | .config => (nonEmpty? value).map fun v => { a with config := some v }
  | .service => some { a with service := some value }
  | .route => (Selection.parse value).toOption.map fun s => { a with route := s }
  | .window => some { a with overrides.window := some value }
  | .interval => some { a with overrides.interval := some value }
  | .smoothing =>
    (Text.natural? Text.maxUnsigned64 value.toList).toOption.map fun n =>
      { a with overrides.smoothing := some n }
  | .onMalformed =>
    (SamplePolicy.parse value).toOption.map fun p => { a with overrides.onMalformed := some p }
  | .format => (format? value).map fun f => { a with format := f }
  | .exportTo => (nonEmpty? value).map fun v => { a with exportTo := some v }
  | .watch => some { a with watch := true }
  | .verbose => some { a with verbosity := min (a.verbosity + 1) 255 }
  | .help => some a

/-- The arguments read so far, and the options that must not come again. -/
structure State where
  arguments : Arguments := {}
  given : List Flag := []

/-- Takes an option with its value. -/
def State.take (s : State) (flag : Flag) (value : String) : Except Stop State :=
  if flag = .help then .error .help
  else if s.given.contains flag then .error .usage
  else
    match store? s.arguments flag value with
    | some a => .ok ⟨a, if flag = .verbose then s.given else flag :: s.given⟩
    | none => .error .usage

/-- The argument can be the value of the option before it: it does not look like an option. -/
def isValue (arg : String) : Bool :=
  match arg.toList with
  | '-' :: _ :: _ => false
  | _ => true

/-- An option that is waiting for its value in the next argument, or the state without one. -/
inductive Pending where
  | nothing (s : State)
  | value (s : State) (flag : Flag)

/-- Takes options that stand together behind one dash. -/
def State.takeShort (s : State) : List Char → Except Stop Pending
  | [] => .ok (.nothing s)
  | c :: rest =>
    match Flag.all.find? (·.short? == some c) with
    | none => .error .usage
    | some flag =>
      if flag.takesValue then
        match rest with
        | [] => if s.given.contains flag then .error .usage else .ok (.value s flag)
        | '=' :: value => (s.take flag (String.ofList value)).map .nothing
        | value => (s.take flag (String.ofList value)).map .nothing
      else
        match s.take flag "" with
        | .error e => .error e
        | .ok s => takeShort s rest

/-- Takes a long option without its dashes. -/
def State.takeLong (s : State) (cs : List Char) : Except Stop Pending :=
  let name := String.ofList (cs.takeWhile (· != '='))
  match Flag.all.find? (·.long == name), cs.dropWhile (· != '=') with
  | none, _ => .error .usage
  | some flag, '=' :: value =>
    if flag.takesValue then (s.take flag (String.ofList value)).map .nothing else .error .usage
  | some flag, _ =>
    if flag.takesValue then
      if s.given.contains flag then .error .usage else .ok (.value s flag)
    else (s.take flag "").map .nothing

/-- Takes one argument. -/
def State.takeArgument (s : State) (arg : String) : Except Stop Pending :=
  match arg.toList with
  | '-' :: '-' :: cs => s.takeLong cs
  | '-' :: c :: cs => s.takeShort (c :: cs)
  | _ => .error .usage

/-- Reads arguments one after another. -/
def readFrom : Pending → List String → Except Stop Arguments
  | .nothing s, [] => .ok s.arguments
  | .value _ _, [] => .error .usage
  | .nothing s, ["--"] => .ok s.arguments
  | .nothing s, arg :: args =>
    match s.takeArgument arg with
    | .error e => .error e
    | .ok p => readFrom p args
  | .value s flag, arg :: args =>
    if isValue arg then
      match s.take flag arg with
      | .error e => .error e
      | .ok s => readFrom (.nothing s) args
    else .error .usage

/-- Reads the arguments of the program.  A chart cannot be written to a file and watched at the
same time. -/
def read (args : List String) : Except Stop Arguments :=
  match readFrom (.nothing {}) args with
  | .error e => .error e
  | .ok a => if a.watch && a.exportTo.isSome then .error .usage else .ok a

/-- The text that help prints. -/
def helpText : String :=
  "Draws charts of the traffic of routes.\n\nOptions:\n" ++
    "  -f, --file <FILE>\n  -c, --config <CONFIG>\n  -s, --service <SERVICE>\n" ++
    "  -r, --route <ROUTE>\n      --window <WINDOW>\n      --interval <INTERVAL>\n" ++
    "      --smoothing <SMOOTHING>\n      --on-malformed <ON_MALFORMED>\n" ++
    "      --format <FORMAT>\n  -e, --export <EXPORT>\n  -w, --watch\n  -v, --verbose...\n" ++
    "  -h, --help\n"

end RouteTraffic.CommandLine
