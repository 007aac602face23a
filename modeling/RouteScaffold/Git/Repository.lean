import RouteScaffold.Git.Library

/-!
# Repositories

A repository is worked on through the functions of a library. `stageAll` lets the index hold what is in the working
directory, `hasStaged` compares the index with the newest commit, and `commit` puts a commit of the index on top of the
history. What one of them did before it failed stays done. What is told of a commit that the library has made
(`Commit.ofObject`) is its identifier, the summary of its message, its author, and the commits it stands on.
-/

namespace RouteScaffold.Git

/-! ## 1. Commits -/

/-- Who made a commit, and when, in seconds. -/
structure Signature where
  name : String
  email : String
  seconds : Int
  deriving DecidableEq, Repr

/-- The signature in a stamp. -/
def Signature.ofStamp (s : Stamp) : Signature := ⟨s.name.getD "Unknown", s.email.getD "unknown", s.seconds⟩

/-- A commit. -/
structure Commit where
  id : ObjectId
  /-- The message in short. -/
  summary : String
  author : Signature
  parents : List ObjectId
  deriving DecidableEq, Repr

/-- What is told of a commit. -/
def Commit.ofObject (c : CommitObject) : Commit := ⟨c.id, c.summary.getD "", .ofStamp c.author, c.parents⟩

/-- Is it the first commit of its branch? -/
def Commit.isRoot (c : Commit) : Bool := c.parents.isEmpty

/-- How a commit is made: its message, its author by name and address, and whether it may change nothing. -/
structure CommitOptions where
  message : String
  author : Option (String × String)
  allowEmpty : Bool
  deriving DecidableEq, Repr

/-- The author when neither the options nor the settings name one. -/
def fallbackAuthor : String × String := ("magic-react", "magic-react@localhost")

/-! ## 2. Errors -/

/-- Why an operation on a repository failed. -/
inductive GitError where
  | notRepository (path : String)
  | nothingToCommit (path : String)
  | invalid (message : String)
  /-- A function of the library failed. -/
  | library (fault : Fault)
  deriving DecidableEq, Repr

/-- The error as a sentence. -/
def GitError.message : GitError → String
  | .notRepository path => s!"not a git repository: {path}"
  | .nothingToCommit path => s!"nothing to commit in {path}"
  | .invalid message => s!"invalid operation: {message}"
  | .library fault => s!"git error: {fault.message}"

/-! ## 3. Steps -/

/-- A step on a repository that may fail. -/
abbrev Handling (σ : Type) : Type → Type := ExceptT GitError (StateM σ)

namespace Handling

variable {σ α : Type}

/-- Asks the library. -/
def ask (f : σ → Except Fault α) : Handling σ α := do
  match f (← get) with
  | .ok value => pure value
  | .error fault => throw (.library fault)

/-- Lets the library change the repository. -/
def change (f : σ → Except Fault α × σ) : Handling σ α := do
  let (result, s) := f (← get)
  set s
  match result with
  | .ok value => pure value
  | .error fault => throw (.library fault)

end Handling

/-! ## 4. Staging and committing -/

namespace Repository

open Handling

variable {σ : Type} (lib : Library σ)

/-- Stages all changes in the working directory, removals too. -/
def stageAll (d : Disk) (root : Place) : Handling σ Unit := do
  ask lib.openIndex
  change (lib.addAll d root)
  change (lib.updateAll d root)
  change lib.writeIndex

/-- Does the index differ from the newest commit? -/
def hasStaged : Handling σ Bool := do
  match lib.head (← get) with
  | .ok target =>
    let tree ← ask (lib.peelToTree · target)
    ask lib.openIndex
    let deltas ← ask (lib.diff · tree)
    pure (0 < deltas)
  | .error _ =>
    ask lib.openIndex
    pure !(lib.isIndexEmpty (← get))

/-- The newest commit, if there is one on the branch. -/
def headCommit : Handling σ (Option Commit) := do
  match lib.head (← get) with
  | .ok target => pure (some (.ofObject (← ask (lib.peelToCommit · target))))
  | .error fault =>
    match fault.kind with
    | .unbornBranch | .notFound => pure none
    | .other => throw (.library fault)

/-- The stamp of an author; without one, that of the settings, or else of the fallback. -/
def authorStamp (author : Option (String × String)) (s : σ) : Except Fault Stamp :=
  match author with
  | some (name, email) => lib.stamp s name email
  | none =>
    match lib.configuredStamp s with
    | .ok stamp => .ok stamp
    | .error _ => lib.stamp s fallbackAuthor.1 fallbackAuthor.2

/-- The commits that a new one stands on: the newest, if there is one. -/
def newParents : Handling σ (List ObjectId) := do
  match lib.head (← get) with
  | .ok target =>
    let parent ← ask (lib.peelToCommit · target)
    pure [parent.id]
  | .error _ => pure []

/-- Puts a commit of the index on top of the newest commit. -/
def record (options : CommitOptions) : Handling σ Commit := do
  let stamp ← ask (authorStamp lib options.author)
  ask lib.openIndex
  let tree ← change lib.writeTree
  ask (lib.findTree · tree)
  let parents ← newParents lib
  let id ← change (lib.commit stamp stamp options.message tree parents)
  pure (.ofObject (← ask (lib.findCommit · id)))

/-- Commits the index, if there is something to commit. `path` is the working directory, for errors. -/
def commit (path : String) (options : CommitOptions) : Handling σ Commit := do
  unless options.allowEmpty do
    unless ← hasStaged lib do throw (.nothingToCommit path)
  record lib options

end Repository

end RouteScaffold.Git
