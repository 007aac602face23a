import RouteScaffold.Path

/-!
# Requests

What a run is asked to do: the project, the file of routes, and which stages to leave out.
-/

namespace RouteScaffold

/-- What a run is asked to do. -/
structure Request where
  /-- The name of the project, which is the path of its directory too. -/
  project : String
  routesFile : String
  /-- Is the project there already? -/
  skipCreation : Bool
  noCommit : Bool
  /-- The directory from which paths are seen. -/
  around : String
  deriving DecidableEq, Repr

namespace Request

/-- The directory of the project. -/
def directory (r : Request) : String := Path.join r.around r.project

/-- The directory of the sources of the project. -/
def sources (r : Request) : String := Path.join r.directory "src"

/-- The path of the file of routes. -/
def routesPath (r : Request) : String := Path.join r.around r.routesFile

end Request

end RouteScaffold
