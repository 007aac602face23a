import RouteScaffold.Files.Disk
import RouteScaffold.Git.ObjectId

/-!
# The library for repositories

What is kept in a repository is left to a library (`Library`), whose functions work on the states of a repository. A
state is all that belongs to the repository behind its handle: objects, references, the index, the settings and the
clock that commits are dated by. Where the files of the working directory count, a function is told of the disk and of
the place of the directory on it.
-/

namespace RouteScaffold.Git

/-! ## 1. Faults -/

/-- What kind of fault the library reports, as far as a kind is ever asked for. -/
inductive FaultKind where
  | notFound
  | unbornBranch
  | other
  deriving DecidableEq, Repr

/-- A fault that the library reports. -/
structure Fault where
  kind : FaultKind
  message : String
  deriving DecidableEq, Repr

/-! ## 2. Commits as the library keeps them -/

/-- Who made a commit, and when, in seconds. A name or an address may be no text. -/
structure Stamp where
  name : Option String
  email : Option String
  seconds : Int
  deriving DecidableEq, Repr

/-- A commit. The summary of its message may be no text. -/
structure CommitObject where
  id : ObjectId
  summary : Option String
  author : Stamp
  parents : List ObjectId
  tree : ObjectId
  deriving DecidableEq, Repr

/-! ## 3. Functions -/

/-- The functions of the library. Those that change a repository give its new state, also where they fail. -/
structure Library (σ : Type) where
  /-- Makes a repository; a bare one has no working directory. -/
  create (bare : Bool) : Except Fault σ
  /-- Opens a repository anew, by another handle. -/
  reopen : σ → Except Fault σ
  isBare : σ → Bool
  /-- Opens the index. -/
  openIndex : σ → Except Fault Unit
  isIndexEmpty : σ → Bool
  /-- Adds the files of the working directory that the pattern `*` fits to the index. -/
  addAll : Disk → Place → σ → Except Fault Unit × σ
  /-- Brings the entries of the index that the pattern `*` fits up to the files of the working directory. -/
  updateAll : Disk → Place → σ → Except Fault Unit × σ
  /-- Writes the index to where it is kept. -/
  writeIndex : σ → Except Fault Unit × σ
  /-- Writes a tree of what the index holds. -/
  writeTree : σ → Except Fault ObjectId × σ
  /-- What the reference `HEAD` leads to. -/
  head : σ → Except Fault ObjectId
  /-- The tree that an object leads to. -/
  peelToTree : σ → ObjectId → Except Fault ObjectId
  /-- The commit that an object leads to. -/
  peelToCommit : σ → ObjectId → Except Fault CommitObject
  findTree : σ → ObjectId → Except Fault Unit
  findCommit : σ → ObjectId → Except Fault CommitObject
  /-- How many paths differ between a tree and the index. -/
  diff : σ → ObjectId → Except Fault Nat
  /-- The stamp of the author that the settings name. -/
  configuredStamp : σ → Except Fault Stamp
  /-- The stamp of an author, by name and address. -/
  stamp : σ → String → String → Except Fault Stamp
  /-- Makes a commit by author, committer, message, tree and parents, and lets the branch of `HEAD` end with it. -/
  commit : Stamp → Stamp → String → ObjectId → List ObjectId → σ → Except Fault ObjectId × σ

end RouteScaffold.Git
