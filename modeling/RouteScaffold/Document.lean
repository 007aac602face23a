import RouteScaffold.Keyed

/-!
# Documents

A document is what a JSON or YAML text stands for: null, truth values, numbers, texts, lists and
mappings with text keys. A mapping keeps the order of its keys and holds each key once; setting a
key again replaces the value at its first place (`Keyed.set`).
-/

namespace RouteScaffold

/-- A document value. Integers are those of 64 bits, signed or unsigned. -/
inductive Document where
  | null
  | bool (value : Bool)
  | integer (value : Int)
  | float (value : Float)
  | text (value : String)
  | list (items : List Document)
  | map (fields : List (String × Document))
  deriving Inhabited

namespace Document

/-- The entries of a mapping. -/
abbrev Fields := Keyed Document

/-- A mapping read from its entries in order: a later entry of a key wins, at the first place. -/
def Fields.ofEntries (entries : Fields) : Fields :=
  entries.foldl (fun fields (k, v) => fields.set k v) []

/-- What kind of value it is, as diagnostics name it. -/
def kind : Document → String
  | .null => "null"
  | .bool _ => "a boolean"
  | .integer _ | .float _ => "a number"
  | .text _ => "a string"
  | .list _ => "an array"
  | .map _ => "a mapping"

end Document

end RouteScaffold
