import RouteScaffold.Config
import RouteScaffold.Document.Yaml.Reading

/-!
# Reading configurations

`Config.read` reads a YAML text as a configuration. Every part of a configuration is a record: a mapping whose
known fields are read by their kind and whose other fields are passed over (`readRecord`). A part that is not given
keeps its standard value.
-/

namespace RouteScaffold.Config

open Document.Yaml

/-! ## 1. Records -/

/-- How a known field is read into what the fields before it made. -/
abbrev FieldReader (σ : Type) := σ → Route → Node → Reading σ

/-- Is the node an empty scalar, which counts as an empty collection? -/
def isEmptyScalar (value : String) (plain : Bool) : Bool := plain && value.isEmpty

/-- Reads one field of a record. A known field may occur once. -/
def readField {σ : Type} (s : Source) (known : String → Option (FieldReader σ))
    (made : σ × List String) (name : String) (way : Route) (node : Node) :
    Reading (σ × List String) :=
  match known name with
  | none => do
    ignore s node
    pure made
  | some reader => do
    if made.2.contains name then unfit s!"duplicate field `{name}`"
    else pure (← reader made.1 way node, name :: made.2)

/-- Reads a record: its fields into a first value. The required fields have to be there. -/
def readRecord {σ : Type} (s : Source) (expected : String) (required : List String)
    (known : String → Option (FieldReader σ)) (initial : σ) (way : Route) (node : Node) :
    Reading σ := do
  let node ← resolved s node
  located node.mark way do
    let (made, names) ← match node with
      | .map _ parts =>
        readEntries s "field identifier" "field identifier" (readField s known) way (initial, [])
          parts
      | .void => pure (initial, [])
      | .scalar _ value plain =>
        if isEmptyScalar value plain then pure (initial, []) else mismatch s expected node
      | node => mismatch s expected node
    match required.find? (!names.contains ·) with
    | some name => unfit s!"missing field `{name}`"
    | none => pure made

/-- Reads a list of texts. -/
def readTexts (s : Source) (way : Route) (node : Node) : Reading (List String) := do
  let node ← resolved s node
  located node.mark way <|
    match node with
    | .list _ items => readItems s (readText s "a string") way 0 items
    | .void => pure []
    | .scalar _ value plain =>
      if isEmptyScalar value plain then pure [] else mismatch s "a sequence" node
    | node => mismatch s "a sequence" node

/-- Reads a text that may be null. -/
def readOptional (s : Source) (expected : String) (way : Route) (node : Node) :
    Reading (Option String) := do
  match ← resolved s node with
  | .void => pure none
  | .scalar head value true =>
    match head.tag with
    | none =>
      if value.isEmpty || Scalar.isNull value then pure none
      else some <$> readText s expected way node
    | some tag =>
      if tag = Scalar.coreTag "null" then
        if Scalar.isNull value then pure none
        else located head.mark way (unfit (wrongValue value "null"))
      else some <$> readText s expected way node
  | _ => some <$> readText s expected way node

/-! ## 2. The parts of a configuration -/

/-- Reads a tool. -/
def readTool (s : Source) : Route → Node → Reading Tool :=
  readRecord s "struct ToolCommand" ["program"]
    (fun
      | "program" => some fun tool way node => do
        pure { tool with program := ← readText s "a string" way node }
      | "args" => some fun tool way node => do
        pure { tool with arguments := ← readTexts s way node }
      | _ => none)
    ⟨"", []⟩

/-- Reads the tools. -/
def readTools (s : Source) : Route → Node → Reading Tools :=
  readRecord s "struct ToolsConfig" []
    (fun
      | "bootstrap" => some fun tools way node => do
        pure { tools with bootstrap := ← readTool s way node }
      | "install" => some fun tools way node => do
        pure { tools with install := ← readTool s way node }
      | "format" => some fun tools way node => do
        pure { tools with format := ← readTool s way node }
      | _ => none)
    standardTools

/-- Reads the defaults of nodes. -/
def readDefaults (s : Source) : Route → Node → Reading Defaults :=
  readRecord s "struct DefaultsConfig" []
    (fun
      | "title" => some fun defaults way node => do
        pure { defaults with title := ← readText s "a string" way node }
      | "icon" => some fun defaults way node => do
        pure { defaults with icon := ← readText s "a string" way node }
      | _ => none)
    Defaults.standard

/-- Reads how a run commits. -/
def readCommit (s : Source) : Route → Node → Reading CommitSettings :=
  readRecord s "struct CommitConfig" []
    (fun
      | "message" => some fun commit way node => do
        pure { commit with message := ← readText s "a string" way node }
      | "author_name" => some fun commit way node => do
        pure { commit with authorName := ← readOptional s "a string" way node }
      | "author_email" => some fun commit way node => do
        pure { commit with authorEmail := ← readOptional s "a string" way node }
      | _ => none)
    standard.commit

/-! ## 3. Configurations -/

/-- Reads a configuration. -/
def readConfig (s : Source) : Route → Node → Reading Config :=
  readRecord s "struct ScaffoldConfig" []
    (fun
      | "tools" => some fun config way node => do
        pure { config with tools := ← readTools s way node }
      | "dependencies" => some fun config way node => do
        pure { config with dependencies := ← readTexts s way node }
      | "directories" => some fun config way node => do
        pure { config with directories := ← readTexts s way node }
      | "cleanup_pattern" => some fun config way node => do
        pure { config with cleanup := ← readText s "a string" way node }
      | "icon_package" => some fun config way node => do
        pure { config with iconPackage := ← readText s "a string" way node }
      | "templates" => some fun config way node => do
        pure { config with templates := ← readOptional s "path string" way node }
      | "defaults" => some fun config way node => do
        pure { config with defaults := ← readDefaults s way node }
      | "commit" => some fun config way node => do
        pure { config with commit := ← readCommit s way node }
      | _ => none)
    standard

/-- Reads a text as a configuration. -/
def read (text : String) : Except Document.Yaml.Error Config :=
  let s := Source.ofText text
  runReading s (readConfig s [] s.root)

end RouteScaffold.Config
