import RouteScaffold.Config

/-!
# Invocations

An invocation is a tool with everything decided: the arguments with the project put in, and the directory in which
it runs. A run has up to three, one for each stage that a tool serves.
-/

namespace RouteScaffold

/-- A stage that a tool serves. -/
inductive ToolStage where
  | bootstrap
  | install
  | format
  deriving DecidableEq, Repr

/-- The name of a stage. -/
def ToolStage.name : ToolStage → String
  | .bootstrap => "bootstrap"
  | .install => "install"
  | .format => "format"

/-- A tool ready to be started. -/
structure Invocation where
  stage : ToolStage
  program : String
  arguments : List String
  directory : String
  deriving DecidableEq, Repr

namespace Invocation

/-- The command as it is typed. -/
def display (i : Invocation) : String := " ".intercalate (i.program :: i.arguments)

/-- The arguments of a tool with the project in place of the placeholder. -/
def argumentsFor (tool : Tool) (project : String) : List String :=
  tool.arguments.map (·.replace Config.placeholder project)

/-- The tool that makes a project, run in the directory around it. -/
def bootstrap (config : Config) (project around : String) : Invocation :=
  let tool := config.tools.bootstrap
  ⟨.bootstrap, tool.program, argumentsFor tool project, around⟩

/-- The tool that installs the dependencies of a project. -/
def install (config : Config) (project directory : String) : Invocation :=
  let tool := config.tools.install
  ⟨.install, tool.program, argumentsFor tool project ++ config.dependencies, directory⟩

/-- The tool that formats a project. -/
def format (config : Config) (project directory : String) : Invocation :=
  let tool := config.tools.format
  ⟨.format, tool.program, argumentsFor tool project, directory⟩

end Invocation

end RouteScaffold
