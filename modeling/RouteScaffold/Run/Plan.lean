import RouteScaffold.Config
import RouteScaffold.Override
import RouteScaffold.Run.Libraries
import RouteScaffold.Run.Progress
import RouteScaffold.Run.Request
import RouteScaffold.Spec.Load

/-!
# Preparing a run

Before a run changes anything it checks that the directory of the project is there or not, as it is asked, and reads
the specification and the templates of the user. All this only looks at the disk.
-/

namespace RouteScaffold

namespace Request

/-! ## 1. The target -/

/-- Why the directory of the project is not as the request wants it. -/
def targetError (r : Request) (isThere : Bool) : Option RunError :=
  if isThere && !r.skipCreation then
    some (.misuse s!"Directory \"{r.project}\" already exists"
      (some "Pass --skip-creation to scaffold into an existing project"))
  else if !isThere && r.skipCreation then
    some (.misuse s!"Directory \"{r.project}\" does not exist"
      (some "Run without --skip-creation to bootstrap the project first"))
  else none

/-- Checks the directory of the project. -/
def checkTarget (r : Request) : FilingFor RunError Unit := do
  let isThere ← (Filing.isThere r.directory).failingWith .file
  match r.targetError isThere with
  | some e => throw e
  | none => pure ()

/-! ## 2. The specification -/

/-- Does the file look like a specification, by its name? -/
def isSpecName (path : String) : Bool :=
  match Path.extension? path with
  | some extension => ["json", "yaml", "yml"].contains extension
  | none => false

/-- The files that look like specifications, seen from the directory around; none if they were not listed. -/
def specsAmong (r : Request) (listed : Except FileError (List String)) : List String :=
  match listed with
  | .ok paths => (paths.filter isSpecName).filterMap (Path.from? r.around)
  | .error _ => []

/-- The error of a specification that is not loaded. One that is not there is told with those beside it. -/
def specError (r : Request) : SpecError → StateM Disk RunError
  | .notRead _ (.notFound _) => do
    let listed ← (Filing.files ((Path.parent? r.routesPath).getD r.around)).run
    pure (.missing RunError.specKind r.routesFile (r.specsAmong listed))
  | e => pure (.ofSpec e)

/-- Loads the specification. -/
def loadSpec (r : Request) (defaults : Defaults) : FilingFor RunError Spec := do
  match ← (Spec.load defaults r.routesPath).run with
  | .ok spec => pure spec
  | .error e => throw (← r.specError e)

/-! ## 3. The templates -/

/-- Loads the templates of the user, if there are any. -/
def loadRenderer (r : Request) (engine : TemplateEngine) (templates : Option String) : FilingFor RunError Renderer :=
  match templates with
  | none => pure .builtin
  | some directory => do
    let overrides ← ExceptT.adapt .templates (Override.load engine (Path.join r.around directory))
    pure (.ofOverrides engine overrides)

end Request

/-- What a run knows when it begins to change things. -/
structure Plan where
  request : Request
  config : Config
  spec : Spec
  renderer : Renderer

/-- The title under which a run checks its input. -/
def Plan.title : String := "Validating routes"

/-- Checks the input of a run and reads it. -/
def Plan.make {σ : Type} (engine : TemplateEngine) (config : Config) (request : Request) : Run σ Plan := do
  Run.onDisk request.checkTarget
  Run.report (.step title)
  let spec ← Run.onDisk (request.loadSpec config.defaults)
  let renderer ← Run.onDisk (request.loadRenderer engine config.templates)
  pure { request, config, spec, renderer }

end RouteScaffold
