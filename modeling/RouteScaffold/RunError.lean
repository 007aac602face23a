import RouteScaffold.Config.Error
import RouteScaffold.EnvFile
import RouteScaffold.Git.Workspace
import RouteScaffold.Log.Filter
import RouteScaffold.Override
import RouteScaffold.Spec.Load
import RouteScaffold.ToolRun

/-!
# Errors of a run

A run fails with one cause, a `RunError`. What is told about it are functions of the cause: a code, a sentence, a
hint, what could have been meant, the violations of a specification, and the chain of what is behind it. Every
failure ends the program with the same status.
-/

namespace RouteScaffold

/-! ## 1. Causes -/

/-- Why a run failed. -/
inductive RunError where
  | config (cause : ConfigError)
  | environment (cause : EnvFile.Error)
  | log (cause : LogError)
  | system (cause : SystemError)
  | file (cause : FileError)
  /-- Something is not there that was named; what could have been meant. -/
  | missing (kind name : String) (suggestions : List String)
  | specNotParsed (path : String) (format : Format) (message : String)
  | specInvalid (violations : List Violation)
  | tool (cause : ToolError)
  | templates (cause : Override.Error)
  | render (fault : RenderFault)
  | git (cause : Git.GitError)
  /-- A mistake in how the program is used. -/
  | misuse (message : String) (hint : Option String)
  /-- Any other error, with what is behind it. -/
  | other (message : String) (behind : List String)
  deriving DecidableEq, Repr

namespace RunError

/-- What a specification is called among what can be missing. -/
def specKind : String := "routes file"

/-- The error of a specification that is not loaded. -/
def ofSpec : SpecError → RunError
  | .notRead path (.notFound _) => .missing specKind path []
  | .notRead _ cause => .file cause
  | .notParsed path format message => .specNotParsed path format message
  | .invalid violations => .specInvalid violations

/-! ## 2. What is told about an error -/

/-- The code of an error. -/
def code : RunError → String
  | .config _ | .environment _ | .log _ => "E001"
  | .system _ | .file _ => "E002"
  | .missing .. => "E003"
  | .specNotParsed .. | .specInvalid _ => "E004"
  | .tool _ => "E005"
  | .templates _ | .render _ => "E006"
  | .git _ => "E007"
  | .misuse .. => "E010"
  | .other .. => "E999"

/-- The status with which the program ends. -/
def status (_ : RunError) : Nat := 255

/-- The error as a sentence. -/
def message : RunError → String
  | .config cause => "Configuration error: " ++ cause.message
  | .environment cause => cause.message
  | .log cause => "Logging setup failed: " ++ cause.message
  | .system cause => cause.message
  | .file cause => cause.message
  | .missing kind name _ => s!"{kind} not found: {name}"
  | .specNotParsed path format message => (SpecError.notParsed path format message).message
  | .specInvalid _ => "Invalid routes file"
  | .tool cause => cause.message
  | .templates cause => "Template error: " ++ cause.message
  | .render fault => "Template error: " ++ fault.message
  | .git cause => "Commit failed: " ++ cause.message
  | .misuse message _ => message
  | .other message _ => message

/-- What to do about the error. -/
def hint? : RunError → Option String
  | .config _ => some "Check .magic-react/config.yaml or the file passed with --config"
  | .environment _ => some "Each .env line must look like NAME=value"
  | .log _ => some "Check RUST_LOG and the MAGIC_REACT_LOG_* variables"
  | .missing _ _ suggestions => if suggestions.isEmpty then none else some "See suggestions below"
  | .specNotParsed .. => some "The routes file must hold a single object keyed by layout name"
  | .specInvalid _ => some "Fix the keys listed above and run again"
  | .misuse _ hint => hint
  | _ => none

/-- What could have been meant. -/
def suggestions : RunError → List String
  | .missing _ _ suggestions => suggestions
  | _ => []

/-- What is wrong with the specification. -/
def violations : RunError → List Violation
  | .specInvalid found => found
  | _ => []

/-! ## 3. What is behind an error -/

/-- The error of a file operation and what is behind it. -/
def chainOfFile (cause : FileError) : List String :=
  cause.message :: match cause with
    | .failed _ _ inner => [inner.message]
    | _ => []

/-- What is behind an error, from the outside in. -/
def chain : RunError → List String
  | .config cause => cause.message :: match cause with
      | .notRead inner => [inner.message]
      | .notPattern _ inner => [inner]
      | _ => []
  | .environment cause => cause.message :: cause.cause.message :: match cause.cause with
      | .system inner => [inner.message]
      | .line _ => []
  | .log cause => cause.message :: match cause with
      | .notOpened inner => [inner.message]
      | _ => []
  | .system cause => [cause.message]
  | .file cause => chainOfFile cause
  | .tool cause => cause.message :: match cause with
      | .notStarted _ _ inner => [inner.message]
      | .failed .. => []
  | .templates cause => cause.message :: match cause with
      | .notRead _ inner => chainOfFile inner
      | .notTemplate fault => fault.message :: fault.behind
  | .render fault => fault.message :: fault.cause.message :: fault.cause.behind
  | .git cause => cause.message :: match cause with
      | .library fault => [fault.message]
      | _ => []
  | .other message behind => message :: behind
  | .missing .. | .specNotParsed .. | .specInvalid _ | .misuse .. => []

/-- A name for what the error is about, and its text. -/
def context? : RunError → Option (String × String)
  | .file cause => some ("path:", cause.path)
  | .tool cause => some ("stage:", cause.stage)
  | .missing kind name _ => some ("missing:", s!"{kind} {name}")
  | _ => none

end RunError

end RouteScaffold
