import RouteScaffold.ArtifactWriter
import RouteScaffold.Expansion
import RouteScaffold.ProjectFiles
import RouteScaffold.Routing.RouteTable
import RouteScaffold.Run.Plan
import RouteScaffold.Summary

/-!
# Stages of a run

Behind the preparation a run goes through its stages: tools make the project and install what it depends on, files
are removed and written, directories are made, a tool formats the sources, and everything is committed. `Plan.stages`
lists the stages of a plan, and `Plan.perform` says what each does.
-/

namespace RouteScaffold

/-- A stage of a run. -/
inductive Stage where
  | bootstrap
  | install
  | cleanup
  | projectFiles
  | components
  | routingModule
  | directories
  | format
  | commit
  deriving DecidableEq, Repr

/-- The title of a stage. -/
def Stage.title : Stage → String
  | .bootstrap => "Creating React project"
  | .install => "Installing dependencies"
  | .cleanup => "Removing default files"
  | .projectFiles => "Copying project files"
  | .components => "Generating layouts and views"
  | .routingModule => "Writing routing module"
  | .directories => "Creating directory structure"
  | .format => "Formatting sources"
  | .commit => "Committing"

namespace Plan

variable {σ : Type}

/-! ## 1. Tools -/

/-- The tool of a stage that a tool serves. -/
def invocation (plan : Plan) : ToolStage → Invocation
  | .bootstrap => .bootstrap plan.config plan.request.project plan.request.around
  | .install => .install plan.config plan.request.project plan.request.directory
  | .format => .format plan.config plan.request.project plan.request.directory

/-- Runs a tool, and reports what it wrote. -/
def runTool (runner : Runner σ) (i : Invocation) : Run σ Unit := do
  Run.report (.invoked i)
  let p ← get
  let run := runner p.workspace i
  set { p with workspace := run.workspace }
  (ToolRun.linesOf run.output).forM fun line => Run.report (.toolLine line)
  (ToolRun.linesOf run.errors).forM fun line => Run.report (.toolError line)
  match ToolError.ofEnding? i run.ending with
  | some e => throw (.tool e)
  | none => pure ()

/-! ## 2. Files -/

/-- Removes the files of a new project that are not wanted. -/
def removeDefaults (plan : Plan) (engine : PatternEngine) : Run σ Unit := do
  match engine.compile plan.config.cleanup with
  | .error cause => throw (.config (.notPattern plan.config.cleanup cause))
  | .ok fits => do
    let _ ← Run.filing (Filing.removeWhere plan.request.sources fits)

/-- Writes planned files. -/
def writeGroups (plan : Plan) (groups : Groups) : Run σ Unit := do
  Run.countFiles (← Run.filing (groups.write plan.request.directory))

/-- Writes the components of the layouts and views. -/
def writeComponents (plan : Plan) : Run σ Unit := do
  plan.writeGroups (← Run.orFail .render (Expansion.ofSpec plan.renderer plan.spec))

/-- Where the routing module is, seen from the project. -/
def routingModulePath : String := "src/Data/routes.js"

/-- The routes of the specification. -/
def table (plan : Plan) : RouteTable := .build plan.spec (.ofSpec plan.spec)

/-- Writes the routing module. -/
def writeRoutingModule (plan : Plan) : Run σ Unit := do
  let parts := RoutingModule.Parts.ofSpec plan.config.iconPackage plan.spec
  let source ← Run.orFail .render (plan.renderer.routes parts)
  Run.filing (Filing.writeWithParents (Path.join plan.request.directory routingModulePath) source.toUTF8)
  modify fun p => { p with links := plan.table.links }
  Run.countFiles 1

/-! ## 3. Directories -/

/-- Makes a directory below the sources; an empty one gets a file that keeps it. -/
def makeDirectory (plan : Plan) (directory : String) : Run σ Unit := do
  match Path.below? plan.request.sources directory with
  | none => throw (.misuse s!"Directory \"{directory}\" escapes the project source tree" none)
  | some path =>
    let kept ← Run.filing (Filing.ensureTracked path)
    Run.countFiles (if kept then 1 else 0)

/-! ## 4. Commits -/

/-- How the run commits. -/
def commitOptions (plan : Plan) : Git.CommitOptions :=
  { message := plan.config.commit.message, author := plan.config.author?, allowEmpty := false }

/-- Commits all files of a workspace in a directory. -/
def commitIn (plan : Plan) (lib : Git.Library σ) (w : Git.Workspace σ) :
    Git.Workspace σ × Except Git.GitError Git.Commit :=
  match w.openOrInitAt lib plan.request.directory with
  | (w, .error e) => (w, .error e)
  | (w, .ok (place, _)) =>
    match w.stageAllAt lib place with
    | (w, .error e) => (w, .error e)
    | (w, .ok ()) => w.commitAt lib place plan.commitOptions

/-- Commits all files of the project. That there is nothing to commit is only a warning. -/
def commitAll (plan : Plan) (lib : Git.Library σ) : Run σ Unit := do
  let p ← get
  let (workspace, result) := plan.commitIn lib p.workspace
  set { p with workspace }
  match result with
  | .ok commit => modify fun p => { p with commit := some commit }
  | .error (.nothingToCommit _) => Run.report (.warning "nothing changed, no commit created")
  | .error e => throw (.git e)

/-! ## 5. Stages -/

/-- What a stage does. -/
def perform (plan : Plan) (libs : Libraries σ) (runner : Runner σ) : Stage → Run σ Unit
  | .bootstrap => runTool runner (plan.invocation .bootstrap)
  | .install => runTool runner (plan.invocation .install)
  | .cleanup => plan.removeDefaults libs.patterns
  | .projectFiles => plan.writeGroups ProjectFiles.groups
  | .components => plan.writeComponents
  | .routingModule => plan.writeRoutingModule
  | .directories => plan.config.directories.forM plan.makeDirectory
  | .format => runTool runner (plan.invocation .format)
  | .commit => plan.commitAll libs.git

/-- The stages of a plan in order. -/
def stages (plan : Plan) : List Stage :=
  (if plan.request.skipCreation then [] else [.bootstrap]) ++
    [.install, .cleanup, .projectFiles, .components, .routingModule, .directories, .format] ++
    (if plan.request.noCommit then [] else [.commit])

/-- Goes through a stage. -/
def goThrough (plan : Plan) (libs : Libraries σ) (runner : Runner σ) (stage : Stage) : Run σ Unit := do
  Run.report (.step stage.title)
  plan.perform libs runner stage

end Plan

/-- A whole run: it prepares a plan and goes through the stages of the plan. -/
def Request.run {σ : Type} (request : Request) (config : Config) (libs : Libraries σ) (runner : Runner σ) :
    Run σ Plan := do
  let plan ← Plan.make libs.templates config request
  plan.stages.forM (plan.goThrough libs runner)
  pure plan

/-- The summary of a run that succeeded. -/
def Plan.summary {σ : Type} (plan : Plan) (p : Progress σ) : Summary where
  directory := plan.request.directory
  layouts := plan.spec.layoutCount
  views := plan.spec.viewCount
  files := p.files
  links := p.links
  commit := p.commit.map fun commit => ⟨commit.id, commit.summary⟩

end RouteScaffold
