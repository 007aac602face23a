import RouteScaffold.Config
import RouteScaffold.Files.SystemError

/-!
# Errors of configurations

A configuration is not loaded because its file is not there or not read, because its text is no configuration,
or because the configuration has a flaw.
-/

namespace RouteScaffold

/-- Why a configuration is not loaded. -/
inductive ConfigError where
  | notFound (path : String)
  | notRead (cause : SystemError)
  /-- The text is no configuration; the line of the fault, if it has one. -/
  | notParsed (line : Option Nat) (message : String)
  | invalid (message : String)
  /-- A text that is no pattern, and why. -/
  | notPattern (text cause : String)
  /-- A variable has no value. -/
  | unbound (name : String)
  deriving DecidableEq, Repr

namespace ConfigError

/-- The error as a sentence. -/
def message : ConfigError → String
  | .notFound path => s!"config file not found: {path}"
  | .notRead cause => s!"failed to read config: {cause.message}"
  | .notParsed line message =>
    let place := (line.map fun n => s!"{n}").getD "unknown"
    s!"invalid YAML at line {place}: {message}"
  | .invalid message => s!"validation error: {message}"
  | .notPattern text cause => s!"invalid pattern `{text}`: {cause}"
  | .unbound name => s!"environment variable not found: {name}"

/-- The error about a flaw. -/
def ofFlaw : Config.Flaw → ConfigError
  | .noProgram tool => .invalid s!"tools.{tool}.program must not be empty"
  | .notPattern text cause => .notPattern text cause
  | .strayDirectory path =>
    .invalid s!"directories entry `{path}` must be a relative path inside src/"
  | .noIconPackage => .invalid "icon_package must not be empty"
  | .noCommitMessage => .invalid "commit.message must not be empty"

end ConfigError

end RouteScaffold
