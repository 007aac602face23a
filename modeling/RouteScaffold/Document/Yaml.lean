import RouteScaffold.Document
import RouteScaffold.Document.Yaml.Reading

/-!
# Reading YAML

`Yaml.read` reads the one document of a YAML text as a document value. Collections nest at most 128
deep; aliases stand for the nodes they name. Keys are texts: a scalar key keeps its spelling. A local tag
is not allowed. Of two entries of a mapping with one key the later wins. Infinities and the number that
is none become null.
-/

namespace RouteScaffold.Document.Yaml

/-- What a value of a document is expected to be. -/
def anyValue : String := "any valid JSON value"

/-- Has the node a local tag? -/
def isLocal (head : Head) : Bool := head.tag.any (·.startsWith "!")

/-- The document value of a scalar. -/
def ofScalar : Scalar → Reading Document
  | .null => pure .null
  | .bool b => pure (.bool b)
  | .integer n =>
    if n < -Int.ofNat (Nat.pow 2 63) ∨ Int.ofNat (Nat.pow 2 64) ≤ n then unfit "JSON number out of range"
    else pure (.integer n)
  | .float x => pure (if x.isFinite then .float x else .null)
  | .text s => pure (.text s)

/-- Reads a scalar. -/
def readScalar (head : Head) (value : String) (plain : Bool) : Reading Document :=
  match Scalar.ofTagged head.tag plain value with
  | .ok scalar => ofScalar scalar
  | .error wanted => unfit (wrongValue value wanted)

/-- Reads a node that is no alias; collections may nest `depth` deep. -/
def content (s : Source) : Nat → Route → Node → Reading Document
  | _, _, .missing => failMissing s
  | _, _, .void => pure .null
  | _, _, .alias .. => throw .tooManyAliases
  | _, way, .scalar head value plain =>
    located head.mark way <|
      if isLocal head then unfit (wrongType "enum" anyValue) else readScalar head value plain
  | 0, way, .list head _ | 0, way, .map head _ =>
    located head.mark way <|
      if isLocal head then unfit (wrongType "enum" anyValue) else throw (.tooDeep head.mark)
  | depth + 1, way, .list head items =>
    located head.mark way <|
      if isLocal head then unfit (wrongType "enum" anyValue)
      else do
        let item (way : Route) (node : Node) : Reading Document := do
          content s depth way (← resolved s node)
        pure (.list (← readItems s item way 0 items))
  | depth + 1, way, .map head parts =>
    located head.mark way <|
      if isLocal head then unfit (wrongType "enum" anyValue)
      else do
        let entry (fields : Fields) (key : String) (way : Route) (node : Node) : Reading Fields := do
          pure (fields.set key (← content s depth way (← resolved s node)))
        pure (.map (← readEntries s "a string key" "a string" entry way [] parts))

/-- How deep the collections of a document may nest. -/
def maxDepth : Nat := 128

/-- Reads a text as a document. -/
def read (text : String) : Except Error Document :=
  let s := Source.ofText text
  runReading s (content s maxDepth [] s.root)

end RouteScaffold.Document.Yaml
