import RouteScaffold.Files.Disk
import RouteScaffold.Files.FileError

/-!
# File operations

The operations by which a run works on a disk. Each is a step from a disk to a disk that may fail; what it did
before it failed stays done.
-/

namespace RouteScaffold

/-- A step on a disk that may fail in one of some ways. -/
abbrev FilingFor (ε : Type) : Type → Type := ExceptT ε (StateM Disk)

/-- A step on a disk that may fail. -/
abbrev Filing : Type → Type := FilingFor FileError

namespace Filing

/-- The step, with its failures told otherwise. -/
def failingWith {ε α : Type} (wrap : FileError → ε) (f : Filing α) : FilingFor ε α := ExceptT.adapt wrap f

/-- Asks the disk. -/
def ask {α : Type} (action path : String) (f : Disk → Except SystemError α) : Filing α := do
  match f (← get) with
  | .ok value => pure value
  | .error e => throw (.ofSystem action path e)

/-- Changes the disk. -/
def change (action path : String) (f : Disk → Except SystemError Disk) : Filing Unit := do
  set (← ask action path f)

/-- The text of a file of at most `limit` bytes. -/
def readText (path : String) (limit : Nat) : Filing String := do
  let size ← ask "read metadata of" path (·.size path)
  if limit < size then throw (.tooLarge path size limit)
  else ask "read" path (·.readText path)

/-- Is anything at the path? -/
def isThere (path : String) : Filing Bool :=
  ask "inspect" path fun d =>
    match d.size path with
    | .ok _ => .ok true
    | .error e => if e.isNotFound then .ok false else .error e

/-- Makes a directory and the directories on the way to it; `fuel` bounds how many. -/
def makeAll : Nat → String → Disk → Except SystemError Unit × Disk
  | 0, _, d => (.error .notFound, d)
  | fuel + 1, path, d =>
    if path.isEmpty then (.ok (), d)
    else
      match d.makeDirectory path with
      | .ok d => (.ok (), d)
      | .error e =>
        if e.isNotFound then
          match Path.parent? path with
          | none => (.error (.other "failed to create whole tree"), d)
          | some parent =>
            match makeAll fuel parent d with
            | (.error e, d) => (.error e, d)
            | (.ok (), d) =>
              match d.makeDirectory path with
              | .ok d => (.ok (), d)
              | .error e => (if d.isDirectory path then .ok () else .error e, d)
        else (if d.isDirectory path then .ok () else .error e, d)

/-- Makes a directory and the directories on the way to it, if they are not there. -/
def ensureDirectory (path : String) : Filing Unit := do
  let (result, d) := makeAll (path.length + 1) path (← get)
  set d
  match result with
  | .ok () => pure ()
  | .error e => throw (.ofSystem "create directory" path e)

/-- Writes a file in a directory that is there. -/
def write (path : String) (content : ByteArray) : Filing Unit :=
  change "write" path (·.write path content)

/-- Makes a file empty, or makes an empty file. -/
def touch (path : String) : Filing Unit := write path .empty

/-- Writes a file and makes the directories on the way to it. -/
def writeWithParents (path : String) (content : ByteArray) : Filing Unit := do
  match Path.parent? path with
  | some parent => if parent.isEmpty then pure () else ensureDirectory parent
  | none => pure ()
  write path content

/-- Is it a file? -/
def isFileEntry : Entry → Bool
  | .file _ => true
  | .directory => false

/-- The names of the files right in a directory, sorted. -/
def fileNames (directory : String) : Filing (List String) := do
  let entries ← ask "list" directory (·.list directory)
  pure (((entries.filter fun (_, e) => isFileEntry e).map Prod.fst).mergeSort (· ≤ ·))

/-- The paths of the files right in a directory, sorted. -/
def files (directory : String) : Filing (List String) := do
  pure ((← fileNames directory).map (Path.join directory))

/-- Removes the files right in a directory whose names satisfy `p`; gives their paths. -/
def removeWhere (directory : String) (p : String → Bool) : Filing (List String) := do
  let names := (← fileNames directory).filter p
  let paths := names.map (Path.join directory)
  paths.forM fun path => change "remove" path (·.remove path)
  pure paths

/-- Makes a directory, if it is not there, and puts an empty `.gitkeep` into it if it is empty. Says
whether it did. -/
def ensureTracked (directory : String) : Filing Bool := do
  ensureDirectory directory
  let entries ← ask "list" directory (·.list directory)
  if entries.isEmpty then
    touch (Path.join directory ".gitkeep")
    pure true
  else pure false

end Filing

end RouteScaffold
