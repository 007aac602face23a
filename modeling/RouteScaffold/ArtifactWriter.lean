import RouteScaffold.Artifact
import RouteScaffold.Files.Filing

/-!
# Writing planned files

A plan is carried out task by task, up to the first task that fails. What a task does is left to a sink
(`Groups.writeTo`); on a disk it makes a directory or writes a file (`Groups.write`).
-/

namespace RouteScaffold

/-- The task with its path seen from a root. -/
def Task.under (root : String) : Task → Task
  | .makeDirectory path => .makeDirectory (Path.join root path)
  | .writeFile path text => .writeFile (Path.join root path) text

/-- What a task does on a disk. -/
def Task.perform : Task → Filing Unit
  | .makeDirectory path => Filing.ensureDirectory path
  | .writeFile path text => Filing.write path text.toUTF8

/-- Carries out a plan below a root; gives how many files were written. -/
def Groups.writeTo {m : Type → Type} [Monad m] (sink : Task → m Unit) (root : String) (g : Groups) :
    m Nat := do
  g.tasks.forM fun task => sink (task.under root)
  pure g.count

/-- Carries out a plan on a disk. -/
def Groups.write (root : String) (g : Groups) : Filing Nat := g.writeTo Task.perform root

end RouteScaffold
