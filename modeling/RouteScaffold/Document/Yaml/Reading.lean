import RouteScaffold.Document.Yaml.Node
import RouteScaffold.Document.Yaml.Scalar
import RouteScaffold.Text.Debug

/-!
# Reading a tree

What all readers of a YAML tree share: the errors that reading meets (`Error`), the way from the root to
a value (`Route`), the count of aliases followed (`Reading`), and the readers of texts, list items and
mapping entries. An error names the value it is about by the way to it and by its place.
-/

namespace RouteScaffold.Document.Yaml

/-! ## 1. Errors -/

/-- One step of the way from the root to a value. -/
inductive Step where
  | key (name : String)
  | item (index : Nat)
  /-- Into a value whose key is no text. -/
  | unnamed
  deriving DecidableEq, Repr

/-- The way from the root to a value, last step first. -/
abbrev Route := List Step

/-- The way as a text; the root is a dot. -/
def Route.text : Route → String
  | [] => "."
  | .item n :: rest => Route.text rest ++ s!"[{n}]"
  | .key name :: rest => leader rest ++ name
  | .unnamed :: rest => leader rest ++ "?"
where
  /-- What stands ahead of a key. -/
  leader : Route → String
    | [] => ""
    | way => Route.text way ++ "."

/-- Why a tree is not read. -/
inductive Error where
  | stopped (stop : Stop)
  | endOfStream
  | manyDocuments
  | tooDeep (mark : Mark)
  | tooManyAliases
  /-- A value does not fit. The place is not known at first: the collection around it gives its own. -/
  | unfit (message : String) (place : Option (Mark × Route))

/-- The place of an error, if it has one. -/
def Error.mark? : Error → Option Mark
  | .stopped (.fault f) => some f.mark
  | .stopped (.unknownAnchor mark) => some mark
  | .tooDeep mark => some mark
  | .unfit _ (some (mark, _)) => some mark
  | _ => none

/-- The error as a sentence. -/
def Error.message : Error → String
  | .stopped (.fault f) => f.message
  | .stopped (.unknownAnchor mark) => "unknown anchor" ++ mark.suffix
  | .endOfStream => "EOF while parsing a value"
  | .manyDocuments =>
    "deserializing from YAML containing more than one document is not supported"
  | .tooDeep mark => "recursion limit exceeded" ++ mark.suffix
  | .tooManyAliases => "repetition limit exceeded"
  | .unfit message none => message
  | .unfit message (some (mark, way)) =>
    (if way.isEmpty then "" else way.text ++ ": ") ++ message ++ mark.suffix

/-! ## 2. The reading monad -/

/-- A reading: it counts the aliases that were followed. -/
abbrev Reading (α : Type) := StateT Nat (Except Error) α

/-- Stops with an error. -/
def fail {α : Type} (e : Error) : Reading α := throw e

/-- Gives an error without place the place of the value being read. -/
def located {α : Type} (mark : Mark) (way : Route) (r : Reading α) : Reading α :=
  tryCatch r fun
    | .unfit message none => throw (.unfit message (some (mark, way)))
    | e => throw e

/-- Stops with an error about the value being read. -/
def unfit {α : Type} (message : String) : Reading α := throw (.unfit message none)

/-- Stops where the events ended. -/
def failMissing {α : Type} (s : Source) : Reading α :=
  match s.stop with
  | some stop => throw (.stopped stop)
  | none => throw .endOfStream

/-- Follows an alias. A document may follow a hundred for each of its events. -/
def follow (s : Source) (number : Nat) : Reading Node := do
  let count ← get
  if s.size * 100 < count + 1 then throw .tooManyAliases
  else
    set (count + 1)
    pure (s.target number)

/-! ## 3. What a value is called -/

/-- A floating-point number with all its places. -/
def floatText (x : Float) : String :=
  if x.isNaN then "NaN"
  else if x.isInf then (if x < 0 then "-inf" else "inf")
  else
    let (sign, m, q) := Decimal.parts x
    let layout : Decimal.Layout := ⟨-400, 400⟩
    let digits :=
      if m == 0 then ['0', '.', '0']
      else layout.write (Decimal.shortest m q (m == Nat.pow 2 52 && -1074 < q))
    String.ofList (if sign then '-' :: digits else digits)

/-- A scalar as an error names it. -/
def Scalar.describe : Scalar → String
  | .null => "unit value"
  | .bool b => s!"boolean `{b}`"
  | .integer n =>
    if n < -Int.ofNat (Nat.pow 2 63) then s!"integer `{n}` as i128"
    else if Int.ofNat (Nat.pow 2 64) ≤ n then s!"integer `{n}` as u128"
    else s!"integer `{n}`"
  | .float x => "floating point `" ++ floatText x ++ "`"
  | .text s => "string " ++ Text.debug s

/-- The message about a value of the wrong kind. -/
def wrongType (found expected : String) : String := s!"invalid type: {found}, expected {expected}"

/-- The message about a text that its tag does not allow. -/
def wrongValue (text expected : String) : String :=
  "invalid value: string " ++ Text.debug text ++ ", expected " ++ expected

/-- Stops because a node is not what was expected. -/
def mismatch {α : Type} (s : Source) (expected : String) : Node → Reading α
  | .missing => failMissing s
  | .void => throw .endOfStream
  | .alias .. => throw .tooManyAliases
  | .scalar head value plain =>
    match Scalar.ofTagged head.tag plain value with
    | .ok scalar => unfit (wrongType scalar.describe expected)
    | .error wanted => unfit (wrongValue value wanted)
  | .list .. => unfit (wrongType "sequence" expected)
  | .map .. => unfit (wrongType "map" expected)

/-- Where a node begins. -/
def Node.mark : Node → Mark
  | .missing | .void => .origin
  | .alias mark _ => mark
  | .scalar head .. => head.mark
  | .list head _ => head.mark
  | .map head _ => head.mark

/-- The node itself, or the node that an alias means. -/
def resolved (s : Source) : Node → Reading Node
  | .alias _ number => follow s number
  | node => pure node

/-! ## 4. Texts, items and entries -/

/-- Reads a scalar as a text, whatever it means otherwise. -/
def readText (s : Source) (expected : String) (way : Route) (node : Node) : Reading String := do
  let node ← resolved s node
  located node.mark way <|
    match node with
    | .scalar _ value _ => pure value
    | node => mismatch s expected node

/-- The step into the value of a key. -/
def stepInto : Node → Step
  | .scalar _ value _ => .key value
  | _ => .unnamed

/-- Reads list items in order. -/
def readItems {α : Type} (s : Source) (item : Route → Node → Reading α) (way : Route) :
    Nat → List Node → Reading (List α)
  | _, [] => pure []
  | _, .missing :: _ => failMissing s
  | n, node :: rest => do
    let value ← item (.item n :: way) node
    let values ← readItems s item way (n + 1) rest
    pure (value :: values)

/-- Reads the entries of a mapping in order, each by `entry` into what the entries before it made.
`first` and `later` say what the first key and the later keys are expected to be. -/
def readEntries {σ : Type} (s : Source) (first later : String)
    (entry : σ → String → Route → Node → Reading σ) (way : Route) : σ → List Node → Reading σ
  | made, [] => pure made
  | _, .missing :: _ => failMissing s
  | _, [_] => failMissing s
  | made, key :: value :: rest => do
    let name ← readText s first way key
    let made ← entry made name (stepInto key :: way) value
    readEntries s later later entry way made rest

mutual

/-- Are all events of the node there? -/
def Node.isWhole : Node → Bool
  | .missing => false
  | .list _ items => allWhole items
  | .map _ parts => allWhole parts
  | _ => true

/-- Are all events of the nodes there? -/
def Node.allWhole : List Node → Bool
  | [] => true
  | node :: rest => node.isWhole && allWhole rest

end

/-- Passes over a node, without following aliases. -/
def ignore (s : Source) (node : Node) : Reading Unit :=
  if node.isWhole then pure () else failMissing s

/-- Runs a reading of a document: behind a value that was read, the events have to be complete, and
nothing may follow. -/
def runReading {α : Type} (s : Source) (r : Reading α) : Except Error α := do
  let (value, _) ← r.run 0
  match s.stop with
  | some stop => .error (.stopped stop)
  | none => if s.single then .ok value else .error .manyDocuments

end RouteScaffold.Document.Yaml
