/-!
# Planned files

What a scaffolding run writes is planned first: directories with their files, and directories that hang off
them. Directories side by side are a forest (`Groups`). The tasks of a plan in order are its `steps`: a
directory is made before its files are written, and these before the directories that hang off it.
-/

namespace RouteScaffold

/-! ## 1. Files -/

/-- What a planned file holds. -/
inductive Content where
  | rendered (text : String)
  | copied (text : String)
  | empty
  deriving DecidableEq, Repr, Inhabited

/-- The text that is written. -/
def Content.text : Content → String
  | .rendered text => text
  | .copied text => text
  | .empty => ""

/-- A planned file. -/
structure Artifact where
  path : String
  content : Content
  deriving DecidableEq, Repr, Inhabited

/-! ## 2. Directories -/

/-- Planned directories side by side: each with its files and the directories that hang off it. -/
inductive Groups where
  | nil
  | group (directory : String) (files : List Artifact) (nested rest : Groups)
  deriving DecidableEq, Repr, Inhabited

namespace Groups

/-- The files of a directory and of all that hang off it, for each directory. -/
def counts : Groups → List Nat
  | .nil => []
  | .group _ files nested rest => (files.length + nested.counts.foldr (· + ·) 0) :: rest.counts

/-- How many files are planned. -/
def count (g : Groups) : Nat := g.counts.foldr (· + ·) 0

/-- The files in order: those of a directory before those of the directories that hang off it. -/
def files : Groups → List Artifact
  | .nil => []
  | .group _ files nested rest => files ++ nested.files ++ rest.files

/-- Directories behind directories. -/
def append : Groups → Groups → Groups
  | .nil, more => more
  | .group directory files nested rest, more => .group directory files nested (rest.append more)

/-- The first directory alone. -/
def first : Groups → Groups
  | .nil => .nil
  | .group directory files nested _ => .group directory files nested .nil

end Groups

/-! ## 3. Tasks -/

/-- One task of a plan. -/
inductive Task where
  | makeDirectory (path : String)
  | writeFile (path text : String)
  deriving DecidableEq, Repr

/-- The path that a task is about. -/
def Task.path : Task → String
  | .makeDirectory path => path
  | .writeFile path _ => path

/-- The task of a file. -/
def Artifact.task (a : Artifact) : Task := .writeFile a.path a.content.text

/-- The tasks of a plan in order. -/
def Groups.tasks : Groups → List Task
  | .nil => []
  | .group directory files nested rest =>
    .makeDirectory directory :: files.map Artifact.task ++ nested.tasks ++ rest.tasks

end RouteScaffold
