import RouteTraffic.Program
import Std.Time.DateTime.Timestamp

/-!
# The program on the file system

The outer layer of the program: it looks up the arguments, the environment and the clock, reads
and writes files, and prints what the library made of them.
-/

namespace RouteTraffic.Main

open Program CommandLine

/-- The text of a file. -/
def readText (path : String) : IO (Except ReadFailure String) := do
  match ← (IO.FS.readBinFile path).toBaseIO with
  | .error (.noFileOrDirectory ..) => pure (.error .notFound)
  | .error e => pure (.error (.other (toString e)))
  | .ok bytes =>
    match String.fromUTF8? bytes with
    | some s => pure (.ok s)
    | none => pure (.error .notText)

/-- There is a file that can be opened. -/
def isFile (path : String) : IO Bool := do
  match ← (IO.FS.readBinFile path).toBaseIO with
  | .ok _ => pure true
  | .error _ => pure false

/-- Replaces the content of a file, and tells whether that was possible. -/
def write (path text : String) : IO Bool := do
  match ← (IO.FS.writeFile path text).toBaseIO with
  | .ok _ => pure true
  | .error _ => pure false

/-- The files of the system. -/
def files : Files IO := { readText, isFile, write }

/-- The environment variables of the process. -/
def environment : IO (List (String × String)) := do
  match ← readText "/proc/self/environ" with
  | .error _ => pure []
  | .ok text =>
    pure ((text.splitOn "\x00").filterMap fun entry =>
      let cs := entry.toList
      match cs.dropWhile (· != '=') with
      | _ :: value => some (String.ofList (cs.takeWhile (· != '=')), String.ofList value)
      | [] => none)

/-- The present instant. -/
def now : IO Instant := do
  let t ← Std.Time.Timestamp.now
  let nanos : Int := t.toNanosecondsSinceUnixEpoch.val
  pure ((Instant.of? (nanos / 1000000000) (nanos % 1000000000).toNat).getD .first)

/-- The zone that the environment names, or UTC. -/
def zone (environment : List (String × String)) : Calendar.Zone :=
  ((environment.lookup "TZ").bind Calendar.Zone.ofPosix?).getD .utc

/-- Looks at a file again and again, and prints the chart after each look.  A change of the content
counts as a change of the file. -/
partial def watch (a : Arguments) (policy : SamplePolicy) (config : SeriesConfig)
    (refreshNanos : Nat) (environment : List (String × String)) (w : Watch)
    (last : Option ByteArray) (changes : Int) : IO Unit := do
  let content := (← (IO.FS.readBinFile a.file).toBaseIO).toOption
  let changed := content.map (·.toList) != last.map (·.toList)
  let changes := if changed then changes + 1 else changes
  let around : Surroundings := { environment, zone := zone environment, now := ← now }
  let file := content.map fun bytes => (⟨changes, bytes⟩ : StoredFile)
  let w := w.update around.zone policy (w.source.poll file)
  IO.print (w.frame a around config)
  (← IO.getStdout).flush
  IO.sleep (UInt32.ofNat (min (refreshNanos / 1000000) 2147483647))
  watch a policy config refreshNanos environment w content changes

/-- Runs the program on the arguments of the process. -/
def runProgram (args : List String) : IO UInt32 := do
  let environment ← environment
  let around : Surroundings := { environment, zone := zone environment, now := ← now }
  let outcome ← run files args around
  match outcome with
  | .printed text => IO.print text
  | .failed message => IO.eprintln ("Error: " ++ message)
  | .stopped .help => IO.print helpText
  | .stopped .usage => IO.eprintln "error: invalid arguments"
  | .watching a policy config refreshNanos =>
    watch a policy config refreshNanos environment (.start a) none 0
  pure (UInt32.ofNat outcome.exitCode)

end RouteTraffic.Main

/-- The entry point. -/
def main (args : List String) : IO UInt32 :=
  RouteTraffic.Main.runProgram args
