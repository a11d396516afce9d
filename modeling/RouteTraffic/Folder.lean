import RouteTraffic.Program

/-!
# A folder in memory

Files by name, on which the program can run without a file system.
-/

namespace RouteTraffic

/-- The texts of files by path. -/
structure Folder where
  files : List (String × String) := []
  deriving DecidableEq, Repr

namespace Folder

/-- The parts of a path, those that stand still left out. -/
def parts (path : String) : List String :=
  (path.splitOn "/").filter fun p => p ≠ "" ∧ p ≠ "."

/-- The path in its normal form. -/
def normal (path : String) : String :=
  "/".intercalate (parts path)

/-- A path that files lie under. -/
def isDirectory (f : Folder) (path : List String) : Bool :=
  path.isEmpty ||
    f.files.any fun e => path.isPrefixOf (parts e.1) && path.length < (parts e.1).length

/-- The directory that one part of a path leads to from another one, inside the folder. -/
def enter? (f : Folder) (directory : List String) (part : String) : Option (List String) :=
  if part = "" || part = "." then some directory
  else if part = ".." then
    if directory = [] then none else some directory.dropLast
  else if f.isDirectory (directory ++ [part]) then some (directory ++ [part])
  else none

/-- The normal form of a path that leads through directories of the folder to a name, which need
not be that of a file yet. -/
def locate? (f : Folder) (path : String) : Option String :=
  let steps := path.splitOn "/"
  let name := steps.getLast?.getD ""
  if path.startsWith "/" || name = "" || name = "." || name = ".." then none
  else
    (steps.dropLast.foldlM f.enter? []).map fun directory => "/".intercalate (directory ++ [name])

/-- The text of a file. -/
def text? (f : Folder) (path : String) : Option String :=
  (f.locate? path).bind fun target => f.files.lookup target

/-- Replaces the text of a file, or adds a file with a name of at most 255 bytes. -/
def write? (f : Folder) (path text : String) : Option Folder :=
  (f.locate? path).bind fun target =>
    if f.isDirectory (parts target) || (parts target).any (255 < ·.utf8ByteSize) then none
    else some ⟨(target, text) :: f.files.filter (·.1 != target)⟩

/-- The program's view of the folder. -/
def access : Program.Files (StateM Folder) where
  readText path := do
    match (← get).text? path with
    | some s => pure (.ok s)
    | none => pure (.error .notFound)
  isFile path := do pure ((← get).text? path).isSome
  write path text := do
    match (← get).write? path text with
    | some f =>
      set f
      pure true
    | none => pure false

/-- The folder with these files, the later ones replacing earlier ones of the same name. -/
def ofList (files : List (String × String)) : Folder :=
  ⟨(files.map fun (name, text) => (normal name, text)).reverse⟩

end Folder

end RouteTraffic
