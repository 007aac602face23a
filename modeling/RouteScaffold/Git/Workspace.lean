import RouteScaffold.Files.Filing
import RouteScaffold.Git.Repository

/-!
# Where repositories are

Repositories are kept beside the disk (`Workspace`), each at the place of its directory; a directory `.git` shows on the
disk that there is one. A directory above is never searched for one.
-/

namespace RouteScaffold.Git

/-- The name of the directory that shows a repository. -/
def marker : String := ".git"

/-- Does a name spell the marker, in whatever case? Nothing below such a name belongs to a working directory. -/
def spellsMarker (name : String) : Bool := name.toList.map Char.toLower == marker.toList

/-- A disk and the repositories on it, each at its place. -/
structure Workspace (σ : Type) where
  disk : Disk
  store : List (Place × σ)
  deriving Inhabited

/-- The absolute path of a place, as of a directory. -/
def placePath (place : Place) : String := "/" ++ String.join (place.map (· ++ "/"))

/-- The path that names write, as the index has it. -/
def pathOf (names : List String) : String := "/".intercalate names

/-- Is there a repository of its own in a directory below a place? -/
def isNested (d : Disk) (root : Place) (names : List String) : Bool :=
  (d.entry? (root ++ names ++ [marker])).isSome

namespace Workspace

variable {σ : Type}

/-! ## 1. Places -/

/-- The repository at a place. -/
def repository? (w : Workspace σ) (place : Place) : Option σ := w.store.lookup place

/-- The workspace with a repository at a place. -/
def setRepository (w : Workspace σ) (place : Place) (s : σ) : Workspace σ :=
  { w with store := (place, s) :: w.store.filter (·.1 != place) }

/-- The place of a directory, if the path leads to one. -/
def directory? (d : Disk) (path : String) : Option Place :=
  match d.find path with
  | .ok ⟨.directory place, _⟩ => some place
  | _ => none

/-- Works on the repository at a place. -/
def handle {α : Type} (w : Workspace σ) (place : Place) (f : Handling σ α) : Workspace σ × Except GitError α :=
  match w.repository? place with
  | none => (w, .error (.notRepository (placePath place)))
  | some s =>
    let (result, s) := f.run s
    (w.setRepository place s, result)

variable (lib : Library σ)

/-! ## 2. Opening -/

/-- The place whose repository a directory shows: that of the directory, or of the one it is the marker of. -/
def shown? (w : Workspace σ) (place : Place) : Option Place :=
  let marked (place : Place) : Bool :=
    (w.repository? place).any fun s => lib.isBare s || (w.disk.entry? (place ++ [marker])).isSome
  if marked place then some place
  else if place.getLast? = some marker && marked place.dropLast then some place.dropLast
  else none

/-- Opens the repository that a directory shows. -/
def openShown (w : Workspace σ) (path : String) : Except Fault (Place × σ) :=
  match (directory? w.disk path).bind (w.shown? lib) with
  | none => .error ⟨.notFound, s!"could not find repository at '{path}'"⟩
  | some place =>
    match w.repository? place with
    | none => .error ⟨.notFound, s!"could not find repository at '{path}'"⟩
    | some s => (lib.reopen s).map (place, ·)

/-- Takes over a repository that was opened, unless it has no working directory. -/
def takeOver (w : Workspace σ) (path : String) (place : Place) (s : σ) : Workspace σ × Except GitError Place :=
  if lib.isBare s then (w, .error (.invalid s!"{path} is a bare repository"))
  else (w.setRepository place s, .ok place)

/-- Opens the repository in a directory. -/
def openAt (w : Workspace σ) (path : String) : Workspace σ × Except GitError Place :=
  match w.openShown lib path with
  | .ok (place, s) => w.takeOver lib path place s
  | .error fault => (w, .error (if fault.kind = .notFound then .notRepository path else .library fault))

/-! ## 3. Making -/

/-- Makes a repository in a directory, which is made if it is not there. A repository that is there stays. -/
def create (w : Workspace σ) (path : String) (bare : Bool) : Workspace σ × Except Fault (Place × σ) :=
  let (made, disk) := (Filing.ensureDirectory path).run w.disk
  let w : Workspace σ := { w with disk }
  match made, directory? disk path with
  | .ok (), some place =>
    match w.openShown lib path with
    | .ok shown => (w, .ok shown)
    | .error fault =>
      if fault.kind = .notFound then
        match lib.create bare with
        | .error fault => (w, .error fault)
        | .ok s =>
          let disk := if bare then disk else disk.put (place ++ [marker]) .directory
          ({ w with disk }.setRepository place s, .ok (place, s))
      else (w, .error fault)
  | .error e, _ => (w, .error ⟨.other, e.message⟩)
  | .ok (), none => (w, .error ⟨.notFound, s!"could not find directory '{path}'"⟩)

/-- Makes a repository with a working directory. -/
def initAt (w : Workspace σ) (path : String) : Workspace σ × Except GitError Place :=
  match w.create lib path false with
  | (w, .ok (place, s)) => w.takeOver lib path place s
  | (w, .error fault) => (w, .error (.library fault))

/-- Opens the repository in a directory or makes one; says whether it made one. -/
def openOrInitAt (w : Workspace σ) (path : String) : Workspace σ × Except GitError (Place × Bool) :=
  match w.openAt lib path with
  | (w, .ok place) => (w, .ok (place, false))
  | (w, .error (.notRepository _)) =>
    let (w, made) := w.initAt lib path
    (w, made.map (·, true))
  | (w, .error e) => (w, .error e)

/-! ## 4. Working -/

/-- Stages all changes in the directory of the repository at a place. -/
def stageAllAt (w : Workspace σ) (place : Place) : Workspace σ × Except GitError Unit :=
  w.handle place (Repository.stageAll lib w.disk place)

/-- Is anything staged in the repository at a place? -/
def hasStagedAt (w : Workspace σ) (place : Place) : Except GitError Bool :=
  (w.handle place (Repository.hasStaged lib)).2

/-- The newest commit of the repository at a place. -/
def headCommitAt (w : Workspace σ) (place : Place) : Except GitError (Option Commit) :=
  (w.handle place (Repository.headCommit lib)).2

/-- Commits in the repository at a place. -/
def commitAt (w : Workspace σ) (place : Place) (options : CommitOptions) : Workspace σ × Except GitError Commit :=
  w.handle place (Repository.commit lib (placePath place) options)

end Workspace

end RouteScaffold.Git
