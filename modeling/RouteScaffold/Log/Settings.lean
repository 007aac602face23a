import RouteScaffold.Environment
import RouteScaffold.Text.Blank

/-!
# Settings of the log

What a run reports to its log, how, and where to. The settings come from variables (`LogSettings.ofVariables`); the
switches of the command line change them (`withVerbosity`).
-/

namespace RouteScaffold

/-- The text with the letters of ASCII in lower case. -/
def lowerAscii (text : String) : String := String.ofList (text.toList.map Char.toLower)

/-! ## 1. Levels and formats -/

/-- How grave a report has to be. -/
inductive LogLevel where
  | trace
  | debug
  | info
  | warn
  | error
  deriving DecidableEq, Repr

/-- The level that a text names, in any case. -/
def LogLevel.ofText? (text : String) : Option LogLevel :=
  match lowerAscii text with
  | "trace" => some .trace
  | "debug" => some .debug
  | "info" => some .info
  | "warn" | "warning" => some .warn
  | "error" => some .error
  | _ => none

/-- The name of a level. -/
def LogLevel.name : LogLevel → String
  | .trace => "trace"
  | .debug => "debug"
  | .info => "info"
  | .warn => "warn"
  | .error => "error"

/-- How reports are written. -/
inductive LogFormat where
  | pretty
  | compact
  | json
  deriving DecidableEq, Repr

/-- The format that a text names; any other text means the compact one. -/
def LogFormat.ofText (text : String) : LogFormat :=
  match lowerAscii text with
  | "json" => .json
  | "pretty" => .pretty
  | _ => .compact

/-! ## 2. Settings -/

/-- The settings of the log. -/
structure LogSettings where
  level : LogLevel
  /-- Rules for single parts of the program. -/
  directives : Option String
  format : LogFormat
  /-- A file that gets the reports too. -/
  file : Option String
  /-- Do reports say where they come from? -/
  source : Bool
  /-- Are beginnings and ends of spans reported? -/
  spans : Bool
  /-- Are reports colored? -/
  ansi : Bool
  deriving DecidableEq, Repr

namespace LogSettings

/-- The settings when nothing is set. -/
def standard : LogSettings := ⟨.warn, none, .compact, none, false, false, true⟩

/-- Does the value of a variable say yes? -/
def isYes (text : String) : Bool := lowerAscii text == "true" || text == "1"

/-- The variable for a setting. -/
def variableName (setting : String) : String := "MAGIC_REACT_LOG_" ++ setting

/-- The level and the directives of the variables. A level of its own goes before the general
variable, which is a level or else directives. -/
def levelOf (lookup : String → Option String) : LogLevel × Option String :=
  match (lookup (variableName "LEVEL")).bind LogLevel.ofText? with
  | some level => (level, none)
  | none =>
    match lookup "RUST_LOG" with
    | none => (standard.level, none)
    | some text =>
      match LogLevel.ofText? text with
      | some level => (level, none)
      | none => (standard.level, if (Text.trim text).isEmpty then none else some text)

/-- The settings that the variables give. -/
def ofVariables (lookup : String → Option String) : LogSettings :=
  let setting (name : String) : Option String := lookup (variableName name)
  let (level, directives) := levelOf lookup
  { standard with
    level, directives
    format := ((setting "FORMAT").map LogFormat.ofText).getD standard.format
    file := setting "FILE"
    source := ((setting "SOURCE").map isYes).getD standard.source
    spans := ((setting "SPANS").map isYes).getD standard.spans }

/-- The settings with the switches for more and for fewer reports. -/
def withVerbosity (settings : LogSettings) (verbose : Nat) (quiet : Bool) : LogSettings :=
  if quiet then { settings with level := .error }
  else
    match verbose with
    | 0 => settings
    | 1 => { settings with level := .info }
    | 2 => { settings with level := .debug }
    | _ => { settings with level := .trace }

/-- The settings with the reports colored or not. -/
def withAnsi (settings : LogSettings) (ansi : Bool) : LogSettings := { settings with ansi }

/-- The rules by which reports are chosen: the level, and the directives behind it. -/
def filter (settings : LogSettings) : String :=
  match settings.directives with
  | some directives => settings.level.name ++ "," ++ directives
  | none => settings.level.name

end LogSettings

end RouteScaffold
