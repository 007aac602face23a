import RouteScaffold.Session
import RouteScaffold.Shell

/-!
# The program

Reads the variables and the files of the working directory, makes a session of them, carries out what the session
changed on the disk, and prints what it printed. Tools are the programs at hand; repositories last as long as the
session.
-/

namespace RouteScaffold.Program

/-! ## 1. Reading -/

/-- How deep directories are read. -/
def depthLimit : Nat := 64

/-- The variables in the text of an environment, in which each ends in a zero. -/
def variablesOf (text : String) : Environment :=
  (text.splitOn (String.ofList [Char.ofNat 0])).filterMap fun entry =>
    let name := entry.toList.takeWhile (· != '=')
    match entry.toList.drop name.length with
    | '=' :: value => some (String.ofList name, String.ofList value)
    | _ => none

/-- Runs an action that may fail. -/
def attempt {α : Type} (action : IO α) : IO (Option α) := do
  try pure (some (← action)) catch _ => pure none

/-- The entries below a directory. Its place is where it stands on the disk; `depth` bounds how deep they lie. -/
def entriesBelow : Nat → Place → IO.FS.DirEntry → IO (List (Place × Entry))
  | 0, _, _ => pure []
  | depth + 1, place, entry => do
    let place := place ++ [entry.fileName]
    if ← entry.path.isDir then
      let below ← ((← attempt entry.path.readDir).getD #[]).toList.mapM (entriesBelow depth place)
      pure ((place, .directory) :: below.flatten)
    else
      match ← attempt (IO.FS.readBinFile entry.path) with
      | some content => pure [(place, .file content)]
      | none => pure []

/-- The directories on the way to a place, and the place itself. -/
def onTheWay (place : Place) : List (Place × Entry) :=
  (List.range place.length).map fun n => (place.take (n + 1), .directory)

/-! ## 2. Writing -/

/-- Does the disk hold the same at a place? -/
def holds (d : Disk) (place : Place) (entry : Entry) : Bool :=
  match d.entry? place, entry with
  | some .directory, .directory => true
  | some (.file a), .file b => a == b
  | _, _ => false

/-- The path of a place. -/
def pathOf (place : Place) : String := "/" ++ "/".intercalate place

/-- Removes the files that are gone and makes what is new. -/
def carryOver (old new : Disk) : IO Unit := do
  for (place, entry) in old.entries do
    match entry, new.entry? place with
    | .file _, some (.file _) => pure ()
    | .file _, _ => IO.FS.removeFile (pathOf place)
    | .directory, _ => pure ()
  for (place, entry) in new.entries do
    if !holds old place entry && !place.contains Git.marker then
      match entry with
      | .directory => IO.FS.createDirAll (pathOf place)
      | .file content => IO.FS.writeBinFile (pathOf place) content

/-! ## 3. The session -/

/-- The session that begins in the working directory. -/
def session : IO (Session Git.Memory) := do
  let directory ← IO.currentDir
  let place := (directory.toString.splitOn "/").filter (!·.isEmpty)
  let found ← (← directory.readDir).toList.mapM (entriesBelow depthLimit place)
  let text := String.fromUTF8? ((← attempt (IO.FS.readBinFile "/proc/self/environ")).getD .empty)
  pure {
    environment := variablesOf (text.getD "")
    workspace := ⟨{ entries := onTheWay place ++ found.flatten, here := place }, []⟩
    directory := directory.toString
    libraries := .standard
    runner := Shell.runner }

/-- Runs the program with its arguments. -/
def run (arguments : List String) : IO UInt32 := do
  let start ← session
  let final := start.run arguments
  carryOver start.workspace.disk final.workspace.disk
  IO.print final.output
  IO.eprint final.errors
  pure final.status.toUInt32

end RouteScaffold.Program

/-- Runs the program with its arguments. -/
def main (arguments : List String) : IO UInt32 := RouteScaffold.Program.run arguments
