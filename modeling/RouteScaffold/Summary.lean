import RouteScaffold.Git.ObjectId
import RouteScaffold.Terminal

/-!
# Summaries of runs

What a run that succeeded has made (`Summary`), and the text that tells it (`Summary.text`).
-/

namespace RouteScaffold

/-- A commit as a summary tells it. -/
structure Committed where
  id : Git.ObjectId
  summary : String
  deriving DecidableEq, Repr

/-- What a run has made. -/
structure Summary where
  /-- The directory of the project. -/
  directory : String
  layouts : Nat
  views : Nat
  /-- How many files were written. -/
  files : Nat
  /-- The paths of the routes. -/
  links : List String
  commit : Option Committed
  deriving DecidableEq, Repr

namespace Summary

/-- The line of what was made. -/
def madeLine (p : Palette) (s : Summary) : String :=
  p.bold .green "✔" ++
    s!" {s.directory} ({s.layouts} layouts, {s.views} views, {s.files} files)\n"

/-- The block of the routes. -/
def linkBlock (p : Palette) (s : Summary) : String :=
  if s.links.isEmpty then ""
  else "\n" ++ p.bold .cyan "Routes:" ++ "\n" ++ String.join (s.links.map fun link => s!"  {link}\n")

/-- The block of the commit. -/
def commitBlock (p : Palette) (s : Summary) : String :=
  match s.commit with
  | some commit =>
    "\n" ++ p.bold .cyan "Committed" ++ s!" {commit.id.short} {commit.summary}\n"
  | none => ""

/-- The summary as a text. -/
def text (p : Palette) (s : Summary) : String := madeLine p s ++ linkBlock p s ++ commitBlock p s

end Summary

end RouteScaffold
