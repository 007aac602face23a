import RouteScaffold.Document.Yaml.Event

/-!
# From events to a tree

`Source.ofEvents` builds the tree of the first document of a text. Where the events end early, the tree
has a `missing` node and the source says why they end (`Stop`); whoever reads the tree meets the fault
there and not before. An alias names its node by number: the count of anchor names in use when the node
began. A number that is given twice means the later node.
-/

namespace RouteScaffold.Document.Yaml

/-! ## 1. Trees -/

/-- The marks of a node: where it begins, its number if it has an anchor, its tag. -/
structure Head where
  mark : Mark
  anchor : Option Nat
  tag : Option String

/-- A node of a document. -/
inductive Node where
  /-- Here the events ended. -/
  | missing
  /-- The text holds no document. -/
  | void
  | alias (mark : Mark) (number : Nat)
  | scalar (head : Head) (value : String) (plain : Bool)
  | list (head : Head) (items : List Node)
  /-- A mapping: keys and values by turns. -/
  | map (head : Head) (parts : List Node)
  deriving Inhabited

/-- Why the events of a document end early. -/
inductive Stop where
  | fault (f : Fault)
  | unknownAnchor (mark : Mark)

/-- The first document of a text. -/
structure Source where
  root : Node
  /-- Why its events end early, if they do. -/
  stop : Option Stop
  /-- Nothing follows the document. -/
  single : Bool
  /-- The nodes with an anchor in order of their beginnings, with their numbers. -/
  anchors : List (Nat × Node)
  /-- How many events the document has. -/
  size : Nat

mutual

/-- The nodes with an anchor within a node, in order of their beginnings. -/
def Node.anchored : Node → List (Nat × Node)
  | .scalar head value plain => numbered head (.scalar head value plain)
  | .list head items => numbered head (.list head items) ++ anchoredAll items
  | .map head parts => numbered head (.map head parts) ++ anchoredAll parts
  | _ => []

/-- The nodes with an anchor within nodes. -/
def Node.anchoredAll : List Node → List (Nat × Node)
  | [] => []
  | node :: rest => node.anchored ++ anchoredAll rest

/-- A node with its number, if it has one. -/
def Node.numbered (head : Head) (node : Node) : List (Nat × Node) :=
  match head.anchor with
  | some n => [(n, node)]
  | none => []

end

/-- The node that a number means. -/
def Source.target (s : Source) (number : Nat) : Node :=
  ((s.anchors.reverse.lookup number)).getD .missing

/-! ## 2. Building -/

/-- A collection that is not closed. -/
structure Open where
  isMap : Bool
  head : Head
  /-- What it holds so far, last first. -/
  read : List Node

/-- The collection as a node. -/
def Open.close (o : Open) : Node :=
  if o.isMap then .map o.head o.read.reverse else .list o.head o.read.reverse

/-- A tree under construction. -/
structure Building where
  /-- The numbers of the anchor names. -/
  names : List (String × Nat)
  opened : List Open
  root : Option Node
  size : Nat

namespace Building

/-- Adds a complete node. -/
def add (b : Building) (node : Node) : Building :=
  match b.opened with
  | [] => { b with root := some node }
  | o :: rest => { b with opened := { o with read := node :: o.read } :: rest }

/-- Closes the innermost collection. -/
def closeOne (b : Building) : Building :=
  match b.opened with
  | [] => b
  | o :: rest => { b with opened := rest }.add o.close

/-- Gives an anchor its number. -/
def head (b : Building) (mark : Mark) (p : Properties) : Head × Building :=
  match p.anchor with
  | none => (⟨mark, none, p.tag⟩, b)
  | some name =>
    let n := b.names.length
    let names := (name, n) :: b.names.filter (·.1 != name)
    (⟨mark, some n, p.tag⟩, { b with names })

/-- The tree when the events end here: what is open is closed behind a missing node. -/
def abandon (b : Building) : Node :=
  match b.opened, b.root with
  | [], some root => root
  | opened, _ => opened.foldl (fun node o => { o with read := node :: o.read }.close) .missing

/-- The source with a tree. -/
def source (b : Building) (root : Node) (stop : Option Stop) (single : Bool) : Source :=
  ⟨root, stop, single, root.anchored, b.size⟩

/-- Does nothing but the end of the stream follow? -/
def nothingFollows (events : List Event) : Bool :=
  match events with
  | ⟨.streamEnd, _⟩ :: _ => true
  | _ => false

/-- Builds the tree of the first document. -/
def run (fault : Option Fault) : List Event → Building → Source
  | [], b => b.source b.abandon (fault.map .fault) true
  | e :: rest, b =>
    let b' := { b with size := b.size + 1 }
    match e.kind with
    | .documentStart => run fault rest b
    | .documentEnd => b.source (b.root.getD .void) none (nothingFollows rest)
    | .streamEnd => b.source .void none true
    | .alias name =>
      match b.names.lookup name with
      | some n => run fault rest (b'.add (.alias e.mark n))
      | none => b.source b.abandon (some (.unknownAnchor e.mark)) true
    | .scalar p value plain =>
      let (head, b) := b'.head e.mark p
      run fault rest (b.add (.scalar head value plain))
    | .listStart p =>
      let (head, b) := b'.head e.mark p
      run fault rest { b with opened := ⟨false, head, []⟩ :: b.opened }
    | .mapStart p =>
      let (head, b) := b'.head e.mark p
      run fault rest { b with opened := ⟨true, head, []⟩ :: b.opened }
    | .listEnd | .mapEnd => run fault rest b'.closeOne

end Building

/-- The first document of a list of events, which a fault may end. -/
def Source.ofEvents (events : List Event) (fault : Option Fault) : Source :=
  Building.run fault events ⟨[], [], none, 0⟩

/-- The first document of a text. -/
def Source.ofText (text : String) : Source :=
  let (tokens, fault) := Token.scan text
  let (events, fault) := Event.ofTokens tokens fault
  Source.ofEvents events fault

end RouteScaffold.Document.Yaml
