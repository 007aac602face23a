import RouteScaffold.Path
import RouteScaffold.Pattern.Search
import RouteScaffold.Spec
import RouteScaffold.Text.Blank

/-!
# Configurations

A configuration says which tools a run starts, what it installs, makes and removes, and how it commits
(`Config`). `Config.standard` holds where nothing is configured. A configuration can be used if it has no flaw
(`Config.flaws`).
-/

namespace RouteScaffold

/-! ## 1. Configurations -/

/-- A program with arguments, in which a placeholder stands for the project. -/
structure Tool where
  program : String
  arguments : List String
  deriving DecidableEq, Repr

/-- The tools of a run. -/
structure Tools where
  /-- Makes the project, from the directory around it. -/
  bootstrap : Tool
  /-- Installs the dependencies, which follow its arguments. -/
  install : Tool
  /-- Formats the sources. -/
  format : Tool
  deriving DecidableEq, Repr

/-- How a run commits. The author counts only with both name and address. -/
structure CommitSettings where
  message : String
  authorName : Option String
  authorEmail : Option String
  deriving DecidableEq, Repr

/-- A configuration. -/
structure Config where
  tools : Tools
  /-- The packages to install. -/
  dependencies : List String
  /-- The directories to make below the sources. -/
  directories : List String
  /-- The pattern of the files to remove from a new project. -/
  cleanup : String
  iconPackage : String
  /-- The directory of templates that replace the built-in ones. -/
  templates : Option String
  defaults : Defaults
  commit : CommitSettings
  deriving DecidableEq, Repr

namespace Config

/-- What stands for the project in the arguments of tools. -/
def placeholder : String := "\x7bproject\x7d"

/-- The tools when nothing is configured. -/
def standardTools : Tools where
  bootstrap := ⟨"npx", ["create-react-app", placeholder]⟩
  install := ⟨"npm", ["install"]⟩
  format := ⟨"npx", ["prettier", "--write", "."]⟩

/-- The configuration when nothing is configured. -/
def standard : Config where
  tools := standardTools
  dependencies :=
    ["react-router-dom", "react-icons", "@hybris-software/use-query", "@hybris-software/use-auth"]
  directories :=
    ["Assets/images", "Assets/icons", "Assets/logos", "Assets/videos", "Components/Advanced",
      "Components/UIKit", "Data", "Hooks", "Layouts", "Utils", "Views"]
  cleanup := "(^App[.])|([.]svg$)"
  iconPackage := "react-icons/ai"
  templates := none
  defaults := .standard
  commit := ⟨"magic react tricks!", none, none⟩

/-- The author of commits, if both name and address are given. -/
def author? (config : Config) : Option (String × String) := do
  pure (← config.commit.authorName, ← config.commit.authorEmail)

/-! ## 2. Flaws -/

/-- What makes a configuration unusable. -/
inductive Flaw where
  | noProgram (tool : String)
  /-- A text that is no pattern, and why. -/
  | notPattern (text cause : String)
  /-- A directory that is not below the sources. -/
  | strayDirectory (path : String)
  | noIconPackage
  | noCommitMessage
  deriving DecidableEq, Repr

/-- Are there only blanks? -/
def isBlank (text : String) : Bool := (Text.trim text).isEmpty

/-- Does the path lead nowhere below a directory? -/
def isStray (path : String) : Bool := isBlank path || (Path.below? "" path).isNone

/-- The flaw of a pattern, if it is none. -/
def patternFlaws (engine : PatternEngine) (text : String) : List Flaw :=
  match engine.compile text with
  | .ok _ => []
  | .error cause => [.notPattern text cause]

/-- The flaws of a configuration, in the order in which they are looked for. -/
def flaws (engine : PatternEngine) (config : Config) : List Flaw :=
  let tools :=
    [("bootstrap", config.tools.bootstrap), ("install", config.tools.install),
      ("format", config.tools.format)]
  (tools.filter fun (_, tool) => isBlank tool.program).map (fun (name, _) => .noProgram name) ++
    patternFlaws engine config.cleanup ++
    (config.directories.filter isStray).map .strayDirectory ++
    (if isBlank config.iconPackage then [.noIconPackage] else []) ++
    (if isBlank config.commit.message then [.noCommitMessage] else [])

end Config

end RouteScaffold
