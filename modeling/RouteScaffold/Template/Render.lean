import RouteScaffold.Decimal.Binary64
import RouteScaffold.Name
import RouteScaffold.Template.Syntax
import RouteScaffold.Text.Debug
import RouteScaffold.Text.Markup

/-!
# Rendering templates

`Template.render` writes a template with the value it is about. A value that is not there is an error
where it is written, and counts as false where it is asked for. Blocks choose (`if`, `unless`) or repeat
(`each`); within `each` the item is the value in scope, and `@index`, `@key`, `@first` and `@last` tell
where the repetition stands. The helpers derive names from keys and write texts as JSX.
-/

namespace RouteScaffold.Template

/-! ## 1. Errors -/

/-- Why a template cannot be rendered with a value. -/
inductive Reason where
  | missing (spelling : Option String)
  | noOperand (helper : String)
  | noHelper (name : String)
  | notAnIndex (name : String)
  deriving DecidableEq, Repr

/-- The wording of a reason. -/
def Reason.message : Reason → String
  | .missing none => "Failed to access variable in strict mode None"
  | .missing (some spelling) =>
    "Failed to access variable in strict mode Some(" ++ Text.debug spelling ++ ")"
  | .noOperand helper => s!"Helper/Decorator {helper} param at index 0 required but not found"
  | .noHelper name => s!"Helper not found {name}"
  | .notAnIndex name => s!"Cannot access array/vector with string index, {name}"

/-- A reason, and the place of the tag where it arose. -/
structure Error where
  reason : Reason
  mark : Option Mark
  deriving DecidableEq, Repr

/-- The error of a named template as a sentence. -/
def Error.message (template : String) (e : Error) : String :=
  match e.mark with
  | none => e.reason.message
  | some m =>
    s!"Error rendering \"{template}\" line {m.line}, col {m.column}: {e.reason.message}"

/-- Gives an error without place the place of a tag. -/
def atMark {α : Type} (mark : Mark) (r : Except Error α) : Except Error α :=
  r.mapError fun e => { e with mark := e.mark <|> some mark }

/-- Stops with a reason. -/
def refuse {α : Type} (reason : Reason) : Except Error α := .error ⟨reason, none⟩

/-! ## 2. Values -/

/-- The value in scope within a block, and the variables that the block sets. -/
structure Scope where
  value : Document
  bound : Document.Fields

/-- The value under a name within a value. -/
def stepInto? (value : Document) (name : String) : Except Error (Option Document) :=
  match value with
  | .map fields => .ok (Keyed.get? fields name)
  | .list items =>
    match name.toNat? with
    | some n => .ok items[n]?
    | none => refuse (.notAnIndex name)
  | _ => .ok none

/-- The value at the end of a way. -/
def follow? (value : Option Document) : List String → Except Error (Option Document)
  | [] => .ok value
  | name :: names =>
    match value with
    | none => .ok none
    | some v => do follow? (← stepInto? v name) names

/-- The scope so many blocks further out; the innermost where there are not so many. -/
def scopeAt? (scopes : List Scope) (up : Nat) : Option Scope :=
  match scopes[up]? with
  | some scope => some scope
  | none => scopes.head?

/-- The value that a way leads to. -/
def lookup? (scopes : List Scope) (way : Way) : Except Error (Option Document) :=
  match way.origin with
  | .root => follow? (scopes.getLast?.map Scope.value) way.names
  | .scope up => follow? ((scopeAt? scopes up).map Scope.value) way.names
  | .variable up =>
    .ok (scopes[up]?.bind fun scope => way.names.head?.bind scope.bound.get?)

/-- Does a value count as true? -/
def isTruthy : Option Document → Bool
  | some (.bool b) => b
  | some (.integer n) => n != 0
  | some (.float x) => x.isFinite && !(x == 0.0)
  | some (.text s) => !s.isEmpty
  | some (.list items) => !items.isEmpty
  | some (.map fields) => !fields.isEmpty
  | _ => false

mutual

/-- A value as a text. -/
def display : Document → String
  | .null => ""
  | .bool b => toString b
  | .integer n => toString n
  | .float x => Decimal.text x
  | .text s => s
  | .list items => "[" ++ ", ".intercalate (displayAll items) ++ "]"
  | .map _ => "[object]"

/-- Values as texts. -/
def displayAll : List Document → List String
  | [] => []
  | item :: rest => display item :: displayAll rest

end

/-! ## 3. Helpers -/

/-- The helpers that write a text made from a text. -/
def textHelper? (name : String) : Option (String → String) :=
  if name = "layoutName" then some Name.layout
  else if name = "viewName" then some Name.view
  else if name = "camelName" then some Name.capitalize
  else if name = "jsxText" then some Text.jsxText
  else none

/-- The helpers of blocks. -/
def isBlockHelper (name : String) : Bool := name == "if" || name == "unless" || name == "each"

/-- Is there a helper of that name? -/
def isHelper (name : String) : Bool := (textHelper? name).isSome || isBlockHelper name

/-- What a helper writes outside of a block. A block helper has no branch there. -/
def applyHelper (name : String) (operands : List (Option Document)) : Except Error String :=
  match textHelper? name with
  | some write =>
    match operands with
    | some (.text s) :: _ => .ok (write s)
    | _ => refuse (.noOperand name)
  | none =>
    if isBlockHelper name then
      if operands.isEmpty then refuse (.noOperand (if name = "each" then "each" else "if"))
      else .ok ""
    else refuse (.noHelper name)

mutual

/-- The value of an operand. -/
def evaluate (scopes : List Scope) : Operand → Except Error (Option Document)
  | .literal value => .ok (some value)
  | .value way => lookup? scopes way
  | .call helper operands => do
    .ok (some (.text (← applyHelper helper (← evaluateAll scopes operands))))

/-- The values of operands. -/
def evaluateAll (scopes : List Scope) : List Operand → Except Error (List (Option Document))
  | [] => .ok []
  | operand :: rest => do
    let value ← evaluate scopes operand
    .ok (value :: (← evaluateAll scopes rest))

end

/-- What a writing tag writes. -/
def renderPhrase (scopes : List Scope) (escaped : Bool) : Phrase → Except Error String
  | .call helper operands => do applyHelper helper (← evaluateAll scopes operands)
  | .name way =>
    if isHelper way.spelling then applyHelper way.spelling []
    else do
      match ← lookup? scopes way with
      | none => refuse (.missing (some way.spelling))
      | some value =>
        let text := display value
        .ok (if escaped then Text.escapeMarkup text else text)

/-! ## 4. Repetition -/

/-- The variables of one round of a repetition. -/
def roundVariables (index count : Nat) (key : String × Document) : Document.Fields :=
  [("first", .bool (index == 0)), ("last", .bool (index + 1 == count)), key]

/-- The scopes of the rounds over list items. -/
def listRounds (items : List Document) : List Scope :=
  items.mapIdx fun i value =>
    ⟨value, roundVariables i items.length ("index", .integer (Int.ofNat i))⟩

/-- The scopes of the rounds over the entries of a mapping. -/
def mapRounds (fields : Document.Fields) : List Scope :=
  fields.mapIdx fun i (key, value) => ⟨value, roundVariables i fields.length ("key", .text key)⟩

/-- The rounds of a repetition; none where the other branch is to be taken. -/
def rounds? (value : Option Document) (divided : Bool) : Option (List Scope) :=
  match value with
  | some (.list items) => if items.isEmpty && divided then none else some (listRounds items)
  | some (.map fields) => if fields.isEmpty && divided then none else some (mapRounds fields)
  | _ => none

/-- The spelling of an operand that is looked up. -/
def Operand.spelling? : Operand → Option String
  | .value way => some way.spelling
  | _ => none

/-! ## 5. Templates -/

/-- Renders a template within scopes, the innermost first. -/
def renderIn : Template → List Scope → Except Error String
  | .nil, _ => .ok ""
  | .text s rest, scopes => do .ok (s ++ (← renderIn rest scopes))
  | .phrase mark held escaped rest, scopes => do
    let written ← atMark mark (renderPhrase scopes escaped held)
    .ok (written ++ (← renderIn rest scopes))
  | .block mark helper operands body divided other rest, scopes => do
    let values ← atMark mark (evaluateAll scopes operands)
    let written ← atMark mark <|
      match values, isBlockHelper helper with
      | [], true => refuse (.noOperand (if helper = "each" then "each" else "if"))
      | value :: _, true =>
        if helper = "each" then
          match rounds? value divided with
          | some rounds => do
            let texts ← rounds.mapM fun scope => renderIn body (scope :: scopes)
            .ok (String.join texts)
          | none =>
            if divided then renderIn other scopes
            else refuse (.missing (operands.head?.bind Operand.spelling?))
        else if isTruthy value == (helper == "if") then renderIn body scopes
        else renderIn other scopes
      | values, false => applyHelper helper values
    .ok (written ++ (← renderIn rest scopes))

end Template

/-- Renders a template with the value it is about. -/
def Template.render (t : Template) (value : Document) : Except Template.Error String :=
  t.renderIn [⟨value, []⟩]

end RouteScaffold
