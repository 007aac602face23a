import RouteScaffold.Document.Json
import RouteScaffold.Document.Yaml
import RouteScaffold.Files.Filing
import RouteScaffold.Spec.Validate

/-!
# Loading a specification

A specification comes from a text in one of two formats, which the name of its file tells. `Spec.load` reads a
file of limited size, reads its text as a document and validates that; each step has its own error.
-/

namespace RouteScaffold

/-- The format of a document. -/
inductive Format where
  | json
  | yaml
  deriving DecidableEq, Repr

namespace Format

/-- The format that the name of a file tells: what is not YAML is JSON. -/
def ofPath (path : String) : Format :=
  match Path.extension? path with
  | some extension => if extension = "yaml" ∨ extension = "yml" then .yaml else .json
  | none => .json

/-- The name of a format. -/
def name : Format → String
  | .json => "JSON"
  | .yaml => "YAML"

/-- Reads a text as a document, or says what is wrong with it. -/
def read (format : Format) (text : String) : Except String Document :=
  match format with
  | .json => (Document.Json.read text).mapError (Document.Json.Error.message text)
  | .yaml => (Document.Yaml.read text).mapError Document.Yaml.Error.message

end Format

/-- Why a specification is not loaded. -/
inductive SpecError where
  | notRead (path : String) (cause : FileError)
  | notParsed (path : String) (format : Format) (message : String)
  | invalid (violations : List Violation)
  deriving DecidableEq, Repr

namespace SpecError

/-- The error as a sentence. -/
def message : SpecError → String
  | .notRead path cause => s!"failed to read route specification {path}: {cause.message}"
  | .notParsed path format message =>
    s!"route specification {path} is not valid {format.name}: {message}"
  | .invalid violations => s!"invalid route specification ({violations.length} violation(s))"

/-- The violations of an invalid specification. -/
def violations : SpecError → List Violation
  | .invalid found => found
  | _ => []

end SpecError

namespace Spec

/-- The largest specification, in bytes. -/
def sizeLimit : Nat := 4 * 1024 * 1024

/-- The specification in a text. -/
def ofText (defaults : Defaults) (path : String) (text : String) : Except SpecError Spec := do
  let format := Format.ofPath path
  let document ← (format.read text).mapError (.notParsed path format)
  (validate defaults document).mapError .invalid

/-- The specification in a file. -/
def load (defaults : Defaults) (path : String) : FilingFor SpecError Spec := do
  let text ← (Filing.readText path sizeLimit).failingWith (.notRead path)
  ofText defaults path text

end Spec

end RouteScaffold
