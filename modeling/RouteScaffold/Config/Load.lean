import RouteScaffold.Config.Error
import RouteScaffold.Config.Read
import RouteScaffold.Config.Reference
import RouteScaffold.Files.Disk

/-!
# Loading configurations

A configuration comes from a text in which references stand for variables (`Config.ofText`). A run takes the text
from a file that is named to it, or else from the file of the project, which may be missing (`Config.load`).
-/

namespace RouteScaffold.Config

/-- The path of the configuration that belongs to a project. -/
def localPath (base : String) : String := Path.join (Path.join base ".magic-react") "config.yaml"

/-- The error of a text that is no configuration. -/
def parseError (e : Document.Yaml.Error) : ConfigError :=
  .notParsed (e.mark?.map fun mark => mark.line + 1) e.message

/-- The configuration, if it has no flaw. -/
def check (engine : PatternEngine) (config : Config) : Except ConfigError Config :=
  match config.flaws engine with
  | [] => .ok config
  | flaw :: _ => .error (.ofFlaw flaw)

/-- The configuration in a text, with the variables put in. -/
def ofText (engine : PatternEngine) (environment : Environment) (text : String) : Except ConfigError Config := do
  let text ← (Reference.expand environment.value? text).mapError .unbound
  let config ← (read text).mapError parseError
  check engine config

/-- The configuration in a file. -/
def ofFile (engine : PatternEngine) (d : Disk) (environment : Environment) (path : String) :
    Except ConfigError Config := do
  let text ← (d.readText path).mapError .notRead
  ofText engine environment text

/-- The configuration of a run in a directory. A file that is named has to be there. -/
def load (engine : PatternEngine) (d : Disk) (environment : Environment) (base : String) (file : Option String) :
    Except ConfigError Config :=
  match file with
  | some file =>
    let path := Path.join base file
    if d.isFile path then ofFile engine d environment path else .error (.notFound path)
  | none =>
    if d.isThere (localPath base) then ofFile engine d environment (localPath base) else .ok standard

end RouteScaffold.Config
