import RouteScaffold.Files.Filing
import RouteScaffold.Renderer

/-!
# Templates of the user

The templates that replace built-in texts are files of fixed names in a directory (`Override.load`). Other
files are passed over.
-/

namespace RouteScaffold.Override

/-- The largest template, in bytes. -/
def sizeLimit : Nat := 1024 * 1024

/-- Why templates are not loaded. -/
inductive Error where
  /-- A file is no template. -/
  | notTemplate (fault : TemplateFault)
  /-- A directory or a file is not read. -/
  | notRead (path : String) (cause : FileError)
  deriving DecidableEq, Repr

/-- The error as a sentence. -/
def Error.message : Error → String
  | .notTemplate fault => "template error: " ++ fault.message
  | .notRead path cause => s!"failed to read templates from {path}: {cause.message}"

/-- Runs a file operation whose failure means that a path is not read. -/
def reading {α : Type} (path : String) (f : Filing α) : FilingFor Error α := f.failingWith (.notRead path)

/-- Takes in the template for a kind of file, if there is one. -/
def loadOne (engine : TemplateEngine) (directory : String) (names : List String) (loaded : Overrides) (slot : Slot) :
    FilingFor Error Overrides :=
  if names.contains slot.file then do
    let path := Path.join directory slot.file
    let text ← reading path (Filing.readText path sizeLimit)
    match engine.compile slot text with
    | .ok () => pure (loaded ++ [(slot, text)])
    | .error fault => throw (.notTemplate fault)
  else pure loaded

/-- Loads the templates of a directory. -/
def load (engine : TemplateEngine) (directory : String) : FilingFor Error Overrides := do
  let names ← reading directory (Filing.fileNames directory)
  Slot.all.foldlM (loadOne engine directory names) []

end RouteScaffold.Override
