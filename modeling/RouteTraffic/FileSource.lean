import RouteTraffic.Snapshot

/-!
# Snapshots from a file

A file source delivers the snapshot in a file whenever the file has changed since the one it
delivered last.  A poll takes two steps, looking at the time of the last change and reading the
content, between which a writer may replace the file; the time that is remembered is the one
seen before the content.
-/

namespace RouteTraffic

/-- A file: the time of its last change, and its bytes. -/
structure StoredFile where
  modified : Int
  bytes : ByteArray

/-- Why a file's content could not be read. -/
inductive ReadFailure where
  | notFound
  | notText
  /-- Any other reason, in the system's words. -/
  | other (reason : String)
  deriving DecidableEq, Repr

/-- The system's words for a failure. -/
def ReadFailure.message : ReadFailure → String
  | .notFound => "No such file or directory (os error 2)"
  | .notText => "stream did not contain valid UTF-8"
  | .other reason => reason

/-- The text of a file, if the file is there. -/
def StoredFile.readText : Option StoredFile → Except ReadFailure String
  | none => .error .notFound
  | some f =>
    match String.fromUTF8? f.bytes with
    | some s => .ok s
    | none => .error .notText

/-- A watched file. -/
structure FileSource where
  path : String
  lastError : Option String := none
  /-- The time of change of the snapshot that was delivered last. -/
  lastModified : Option Int := none
  deriving DecidableEq, Repr

namespace FileSource

/-- What the source is, in words. -/
def description (s : FileSource) : String := "file: " ++ s.path

/-- The file is read if nothing was delivered yet, or if it is newer than what was. -/
def wantsRead (s : FileSource) (modified : Option Int) : Bool :=
  match s.lastModified, modified with
  | none, _ => true
  | some _, none => false
  | some last, some current => last < current

/-- The snapshot in a text, or what went wrong in words. -/
def readSnapshot (content : Except ReadFailure String) : Except String (List Snapshot.Service) :=
  match content with
  | .error e => .error ("Read error: " ++ e.message)
  | .ok text =>
    match Snapshot.Document.read text with
    | .ok d => .ok d.services
    | .error _ => .error "Parse error"

/-- The second step of a poll that wants to read: what was read after a time of change was seen. -/
def receive (s : FileSource) (modified : Option Int) (content : Except ReadFailure String) :
    FileSource × Option (List Snapshot.Service) :=
  match readSnapshot content with
  | .ok services => ({ s with lastError := none, lastModified := modified }, some services)
  | .error e => ({ s with lastError := some e }, none)

/-- A poll that sees one state of the file in its first step and another in its second. -/
def pollBetween (s : FileSource) (before after : Option StoredFile) :
    FileSource × Option (List Snapshot.Service) :=
  let modified := before.map (·.modified)
  if s.wantsRead modified then s.receive modified (StoredFile.readText after) else (s, none)

/-- A poll of a file that does not change meanwhile. -/
def poll (s : FileSource) (file : Option StoredFile) :
    FileSource × Option (List Snapshot.Service) :=
  s.pollBetween file file

end FileSource

end RouteTraffic
