import RouteScaffold.Document.Yaml.Lexer

/-!
# From tokens to events

An event is one step in the tour of a document: a scalar, an alias, the beginning or the end of a list
or a mapping; the documents of the text are set apart by events too. `Event.ofTokens` reads tokens as
events, with the empty scalars that the tokens leave out put in. What is expected next is a `State`;
what is to come when a node is complete stands on a stack of states.
-/

namespace RouteScaffold.Document.Yaml

/-! ## 1. Events -/

/-- The anchor and the tag of a node. -/
structure Properties where
  anchor : Option String
  tag : Option String
  deriving DecidableEq, Repr

/-- What an event is. -/
inductive Event.Kind where
  | documentStart
  | documentEnd
  | streamEnd
  | alias (name : String)
  | scalar (properties : Properties) (value : String) (plain : Bool)
  | listStart (properties : Properties)
  | listEnd
  | mapStart (properties : Properties)
  | mapEnd
  deriving DecidableEq, Repr

/-- An event and its place. -/
structure Event where
  kind : Event.Kind
  mark : Mark
  deriving DecidableEq, Repr

/-! ## 2. The reader's state -/

/-- What is expected next. -/
inductive State where
  | streamStart
  | firstDocument
  | document
  | documentContent
  | documentEnd
  | blockNode
  | blockListEntry
  | indentlessEntry
  | blockMapKey
  | blockMapValue
  | flowListFirst
  | flowListEntry
  | pairKey
  | pairValue
  | pairEnd
  | flowMapFirst
  | flowMapKey
  | flowMapValue
  | flowMapEmptyValue
  | done
  deriving DecidableEq, Repr

/-- The state between two events. -/
structure Reader where
  tokens : List Token
  /-- The fault behind the last token, if any. -/
  fault : Option Fault
  state : State
  /-- The states to come back to. -/
  states : List State
  /-- Where the open collections begin, innermost first. -/
  marks : List Mark
  /-- The tag handles of the document and what they stand for. -/
  rules : List (String × String)

/-- A step of the reader: an event, or none where only the state changes. -/
abbrev Stepped := Except (Option Fault) (Option Event × Reader)

namespace Reader

/-- The next token. Where there is none, the fault behind the last token comes up. -/
def peek (r : Reader) : Except (Option Fault) Token :=
  match r.tokens with
  | t :: _ => .ok t
  | [] => .error r.fault

/-- Behind the next token. -/
def skip (r : Reader) : Reader := { r with tokens := r.tokens.drop 1 }

/-- Goes on with a state. -/
def goto (r : Reader) (state : State) : Reader := { r with state }

/-- Remembers a state to come back to. -/
def pushState (r : Reader) (state : State) : Reader := { r with states := state :: r.states }

/-- Comes back to the last remembered state. -/
def popState (r : Reader) : Reader :=
  { r with state := r.states.head?.getD .done, states := r.states.drop 1 }

/-- Remembers where a collection begins. -/
def pushMark (r : Reader) (mark : Mark) : Reader := { r with marks := mark :: r.marks }

/-- Forgets where the innermost collection begins. -/
def popMark (r : Reader) : Reader := { r with marks := r.marks.drop 1 }

/-- Where the innermost collection begins. -/
def lastMark (r : Reader) : Mark := r.marks.head?.getD .origin

/-- Emits an event. -/
def emit (r : Reader) (kind : Event.Kind) (mark : Mark) : Stepped := .ok (some ⟨kind, mark⟩, r)

/-- Emits a scalar that the text leaves out. -/
def emitEmpty (r : Reader) (mark : Mark) : Stepped :=
  r.emit (.scalar ⟨none, none⟩ "" true) mark

/-- Stops at a fault. -/
def fail {α : Type} (f : Fault) : Except (Option Fault) α := .error (some f)

/-! ## 3. Documents -/

/-- The tag handles that every document has. -/
def standardRules : List (String × String) := [("!", "!"), ("!!", "tag:yaml.org,2002:")]

/-- Reads the directives of a document. -/
def directives : Nat → Bool → Reader → Except (Option Fault) Reader
  | 0, _, r => .ok r
  | fuel + 1, versioned, r => do
    let t ← r.peek
    match t.kind with
    | .version major minor =>
      if versioned then fail (.plain .repeatedVersion t.start)
      else if major ≠ 1 ∨ (minor ≠ 1 ∧ minor ≠ 2) then fail (.plain .otherVersion t.start)
      else directives fuel true r.skip
    | .tagRule handle root =>
      if (r.rules.lookup handle).isSome then fail (.plain .repeatedTagRule t.start)
      else directives fuel versioned { r.skip with rules := r.rules ++ [(handle, root)] }
    | _ => .ok { r with rules := r.rules ++ standardRules }

/-- Begins the first document, which needs no mark, or a further one. -/
def documentStart (first : Bool) (r : Reader) : Stepped := do
  let r := if first then r else { r with tokens := r.tokens.dropWhile (·.kind = .documentEnd) }
  let t ← r.peek
  match t.kind with
  | .streamEnd => (r.skip.goto .done).emit .streamEnd t.start
  | .version .. | .tagRule .. | .documentStart => marked r t
  | _ =>
    if first then
      (({ r with rules := standardRules }.pushState .documentEnd).goto .blockNode).emit
        .documentStart t.start
    else marked r t
where
  /-- Begins a document with directives and a mark. -/
  marked (r : Reader) (t : Token) : Stepped := do
    let r ← directives (r.tokens.length + 1) false { r with rules := [] }
    let mark ← r.peek
    if mark.kind = .documentStart then
      ((r.pushState .documentEnd).goto .documentContent).skip.emit .documentStart t.start
    else fail (.plain .noDocumentStart mark.start)

/-- Ends a document. -/
def documentEnd (r : Reader) : Stepped := do
  let t ← r.peek
  let r := if t.kind = .documentEnd then r.skip else r
  (r.goto .document).emit .documentEnd t.start

/-! ## 4. Nodes -/

/-- The anchor and tag of a node as they are read. -/
structure Prelude where
  anchor : Option String
  tag : Option (String × String × Mark)
  start : Mark

/-- Reads an anchor and a tag, in either order. -/
def properties (r : Reader) : Except (Option Fault) (Prelude × Reader) := do
  let t ← r.peek
  match t.kind with
  | .anchor name =>
    let r := r.skip
    let u ← r.peek
    match u.kind with
    | .tag handle suffix => .ok (⟨some name, some (handle, suffix, u.start), t.start⟩, r.skip)
    | _ => .ok (⟨some name, none, t.start⟩, r)
  | .tag handle suffix =>
    let r := r.skip
    let u ← r.peek
    match u.kind with
    | .anchor name => .ok (⟨some name, some (handle, suffix, t.start), t.start⟩, r.skip)
    | _ => .ok (⟨none, some (handle, suffix, t.start), t.start⟩, r)
  | _ => .ok (⟨none, none, t.start⟩, r)

/-- The tag that a handle and a suffix stand for. -/
def resolveTag (r : Reader) (p : Prelude) : Except (Option Fault) (Option String) :=
  match p.tag with
  | none => .ok none
  | some (handle, suffix, mark) =>
    if handle.isEmpty then .ok (some suffix)
    else
      match r.rules.lookup handle with
      | some root => .ok (some (root ++ suffix))
      | none => fail (.during .node p.start .undefinedHandle mark)

/-- Reads a node's beginning. `block`: block collections may begin here; `indentless`: so may a list
that is not indented. -/
def node (block indentless : Bool) (r : Reader) : Stepped := do
  let t ← r.peek
  match t.kind with
  | .alias name => r.skip.popState.emit (.alias name) t.start
  | _ =>
    let (p, r) ← r.properties
    let tag ← r.resolveTag p
    let t ← r.peek
    let props : Properties := ⟨p.anchor, tag⟩
    let bare := p.anchor.isNone && tag.isNone
    match t.kind with
    | .blockEntry =>
      if indentless then (r.goto .indentlessEntry).emit (.listStart props) p.start
      else other r p props bare t
    | .scalar value plain =>
      if tag = some "!" then
        r.skip.popState.emit (.scalar ⟨p.anchor, none⟩ value plain) p.start
      else r.skip.popState.emit (.scalar props value plain) p.start
    | .flowListStart => (r.goto .flowListFirst).emit (.listStart props) p.start
    | .flowMapStart => (r.goto .flowMapFirst).emit (.mapStart props) p.start
    | .blockListStart =>
      if block then
        ((r.pushMark t.start).skip.goto .blockListEntry).emit (.listStart props) p.start
      else other r p props bare t
    | .blockMapStart =>
      if block then
        ((r.pushMark t.start).skip.goto .blockMapKey).emit (.mapStart props) p.start
      else other r p props bare t
    | _ => other r p props bare t
where
  /-- A node without content is an empty scalar if it has an anchor or a tag. -/
  other (r : Reader) (p : Prelude) (props : Properties) (bare : Bool) (t : Token) : Stepped :=
    if bare then
      fail (.during (if block then .blockNode else .flowNode) p.start .noContent t.start)
    else r.popState.emit (.scalar props "" true) p.start

/-- The content of a document behind its mark, which may be missing. -/
def documentContent (r : Reader) : Stepped := do
  let t ← r.peek
  match t.kind with
  | .version .. | .tagRule .. | .documentStart | .documentEnd | .streamEnd =>
    r.popState.emitEmpty t.start
  | _ => r.node true false

/-! ## 5. Block collections -/

/-- Reads a node and comes back to `back`, or an empty scalar if what follows is one of `ends`. -/
def nodeUnless (ends : Token.Kind → Bool) (back : State) (block indentless : Bool) (mark : Mark)
    (r : Reader) : Stepped := do
  let t ← r.peek
  if ends t.kind then (r.goto back).emitEmpty mark
  else (r.pushState back).node block indentless

/-- The next item of a block list. -/
def blockListEntry (r : Reader) : Stepped := do
  let t ← r.peek
  match t.kind with
  | .blockEntry =>
    r.skip.nodeUnless (fun k => k = .blockEntry ∨ k = .blockEnd) .blockListEntry true false t.stop
  | .blockEnd => r.skip.popState.popMark.emit .listEnd t.start
  | _ => fail (.during .blockList r.lastMark .noDash t.start)

/-- The next item of a list that is not indented. -/
def indentlessEntry (r : Reader) : Stepped := do
  let t ← r.peek
  match t.kind with
  | .blockEntry =>
    r.skip.nodeUnless (fun k => k = .blockEntry ∨ k = .key ∨ k = .value ∨ k = .blockEnd)
      .indentlessEntry true false t.stop
  | _ => r.popState.emit .listEnd t.start

/-- What ends a key or a value of a block mapping. -/
def endsBlockPart (k : Token.Kind) : Bool := k = .key ∨ k = .value ∨ k = .blockEnd

/-- The next key of a block mapping. -/
def blockMapKey (r : Reader) : Stepped := do
  let t ← r.peek
  match t.kind with
  | .key => r.skip.nodeUnless endsBlockPart .blockMapValue true true t.stop
  | .blockEnd => r.skip.popState.popMark.emit .mapEnd t.start
  | _ => fail (.during .blockMap r.lastMark .noKey t.start)

/-- The value behind a key of a block mapping. -/
def blockMapValue (r : Reader) : Stepped := do
  let t ← r.peek
  match t.kind with
  | .value => r.skip.nodeUnless endsBlockPart .blockMapKey true true t.stop
  | _ => (r.goto .blockMapKey).emitEmpty t.start

/-! ## 6. Flow collections -/

/-- Opens a flow collection. -/
def openFlow (r : Reader) : Except (Option Fault) Reader := do
  let t ← r.peek
  .ok (r.pushMark t.start).skip

/-- Behind the `,` ahead of an entry; the first entry has none. -/
def separator (first : Bool) (close : Token.Kind) (activity : Activity) (problem : Problem)
    (r : Reader) : Except (Option Fault) Reader := do
  let t ← r.peek
  if first || t.kind = close then .ok r
  else if t.kind = .flowEntry then .ok r.skip
  else fail (.during activity r.lastMark problem t.start)

/-- The next item of a flow list. -/
def flowListEntry (first : Bool) (r : Reader) : Stepped := do
  let r ← r.separator first .flowListEnd .flowList .noListSeparator
  let t ← r.peek
  match t.kind with
  | .flowListEnd => r.skip.popState.popMark.emit .listEnd t.start
  | .key => (r.skip.goto .pairKey).emit (.mapStart ⟨none, none⟩) t.start
  | _ => (r.pushState .flowListEntry).node false false

/-- The key of a pair within a flow list. -/
def pairKey (r : Reader) : Stepped := do
  let t ← r.peek
  match t.kind with
  | .value | .flowEntry | .flowListEnd => (r.skip.goto .pairValue).emitEmpty t.stop
  | _ => (r.pushState .pairValue).node false false

/-- The value of a pair within a flow list. -/
def pairValue (r : Reader) : Stepped := do
  let t ← r.peek
  match t.kind with
  | .value =>
    let r := r.skip
    let u ← r.peek
    r.nodeUnless (fun k => k = .flowEntry ∨ k = .flowListEnd) .pairEnd false false u.start
  | _ => (r.goto .pairEnd).emitEmpty t.start

/-- The end of a pair within a flow list. -/
def pairEnd (r : Reader) : Stepped := do
  let t ← r.peek
  (r.goto .flowListEntry).emit .mapEnd t.start

/-- The next key of a flow mapping. -/
def flowMapKey (first : Bool) (r : Reader) : Stepped := do
  let r ← r.separator first .flowMapEnd .flowMap .noMapSeparator
  let t ← r.peek
  match t.kind with
  | .flowMapEnd => r.skip.popState.popMark.emit .mapEnd t.start
  | .key =>
    let r := r.skip
    let u ← r.peek
    r.nodeUnless (fun k => k = .value ∨ k = .flowEntry ∨ k = .flowMapEnd) .flowMapValue false false
      u.start
  | _ => (r.pushState .flowMapEmptyValue).node false false

/-- The value behind a key of a flow mapping. -/
def flowMapValue (r : Reader) : Stepped := do
  let t ← r.peek
  match t.kind with
  | .value =>
    let r := r.skip
    let u ← r.peek
    r.nodeUnless (fun k => k = .flowEntry ∨ k = .flowMapEnd) .flowMapKey false false u.start
  | _ => (r.goto .flowMapKey).emitEmpty t.start

/-! ## 7. All events -/

/-- One step. -/
def step (r : Reader) : Stepped :=
  match r.state with
  | .streamStart => do
    let _ ← r.peek
    .ok (none, r.skip.goto .firstDocument)
  | .firstDocument => r.documentStart true
  | .document => r.documentStart false
  | .documentContent => r.documentContent
  | .documentEnd => r.documentEnd
  | .blockNode => r.node true false
  | .blockListEntry => r.blockListEntry
  | .indentlessEntry => r.indentlessEntry
  | .blockMapKey => r.blockMapKey
  | .blockMapValue => r.blockMapValue
  | .flowListFirst => do (← r.openFlow).flowListEntry true
  | .flowListEntry => r.flowListEntry false
  | .pairKey => r.pairKey
  | .pairValue => r.pairValue
  | .pairEnd => r.pairEnd
  | .flowMapFirst => do (← r.openFlow).flowMapKey true
  | .flowMapKey => r.flowMapKey false
  | .flowMapValue => r.flowMapValue
  | .flowMapEmptyValue => do
    let t ← r.peek
    (r.goto .flowMapKey).emitEmpty t.start
  | .done => .error none

/-- The events from a state on, last first, and the fault that ends them. -/
def events : Nat → List Event → Reader → List Event × Option Fault
  | 0, read, _ => (read, none)
  | fuel + 1, read, r =>
    match r.step with
    | .error fault => (read, fault)
    | .ok (none, r) => events fuel read r
    | .ok (some e, r) => events fuel (e :: read) r

end Reader

/-- The events of a token list up to its end or the first fault. -/
def Event.ofTokens (tokens : List Token) (fault : Option Fault) : List Event × Option Fault :=
  let r : Reader :=
    { tokens, fault, state := .streamStart, states := [], marks := [], rules := [] }
  let (events, fault) := r.events (8 * tokens.length + 32) []
  (events.reverse, fault)

end RouteScaffold.Document.Yaml
