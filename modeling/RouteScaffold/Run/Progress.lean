import RouteScaffold.Files.Filing
import RouteScaffold.Git.Workspace
import RouteScaffold.RunError

/-!
# Progress of a run

A run is a program over its `Progress`: the disk with the repositories on it, what has been reported so far, and what
has been made. It stops at the first error; what it did before stays done. What a repository is (`σ`) is up to the
library that keeps it.
-/

namespace RouteScaffold

/-! ## 1. Reports -/

/-- What a run reports while it goes on. -/
inductive Event where
  | step (title : String)
  | warning (message : String)
  | invoked (i : Invocation)
  /-- A line that a tool wrote. -/
  | toolLine (text : String)
  /-- A line that a tool wrote about errors. -/
  | toolError (text : String)
  deriving DecidableEq, Repr

/-- How far a run is. -/
structure Progress (σ : Type) where
  workspace : Git.Workspace σ
  /-- The reports in order. -/
  events : List Event
  /-- How many files were written. -/
  files : Nat
  links : List String
  commit : Option Git.Commit

namespace Progress

variable {σ : Type}

/-- The progress of a run that has not begun. -/
def start (w : Git.Workspace σ) : Progress σ := ⟨w, [], 0, [], none⟩

/-- The tools that were invoked, in order. -/
def invoked (p : Progress σ) : List Invocation :=
  p.events.filterMap fun
    | .invoked i => some i
    | _ => none

end Progress

/-! ## 2. Runs -/

/-- A run or a part of it, which may fail. -/
abbrev Run (σ : Type) : Type → Type := ExceptT RunError (StateM (Progress σ))

namespace Run

variable {σ α : Type}

/-- Reports. -/
def report (e : Event) : Run σ Unit := modify fun p => { p with events := p.events ++ [e] }

/-- Works on the disk. -/
def onDisk (f : FilingFor RunError α) : Run σ α := do
  let p ← get
  let (result, disk) := f.run p.workspace.disk
  set { p with workspace := { p.workspace with disk } }
  match result with
  | .ok value => pure value
  | .error e => throw e

/-- Works on files. -/
def filing (f : Filing α) : Run σ α := onDisk (f.failingWith .file)

/-- Takes a value or fails. -/
def orFail {ε : Type} (wrap : ε → RunError) : Except ε α → Run σ α
  | .ok value => pure value
  | .error e => throw (wrap e)

/-- Counts files that were written. -/
def countFiles (n : Nat) : Run σ Unit := modify fun p => { p with files := p.files + n }

end Run

end RouteScaffold
