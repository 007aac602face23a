import RouteScaffold.Proofs.Script.Token

/-!
# Scripts

The syntax of scripts, as far as the running part of the routing module needs it, and the tokens by which scripts are
written. How a script is laid out in lines does not matter; parentheses around an expression are part of its syntax.
-/

namespace RouteScaffold.Script

/-! ## 1. Syntax -/

mutual

/-- An expression. -/
inductive Expr where
  | name (x : String)
  | missing
  | nothing
  | text (value : String)
  | number (value : Nat)
  | group (e : Expr)
  | object (fields : List (String × Expr))
  | noItems
  | member (e : Expr) (field : String)
  | plus (a b : Expr)
  | both (a b : Expr)
  | same (a b : Expr)
  | choose (condition yes no : Expr)
  | method (e : Expr) (name : String) (argument : Expr)
  | call (function : String) (arguments : List Expr)
  /-- What an expression gives for each entry of an object. -/
  | eachEntry (e : Expr) (key value : String) (body : Expr)
  /-- What statements give for each entry of an object. -/
  | eachEntryBy (e : Expr) (key value : String) (body : List Stmt)
  | markup (tag : String) (attributes : List (String × Expr)) (children : List Child)

/-- What stands between the tags of markup. -/
inductive Child where
  | braced (e : Expr)
  | words (text : String)

/-- A statement. -/
inductive Stmt where
  | constant (x : String) (e : Expr)
  | ifTrue (condition : Expr) (body : List Stmt)
  | give (e : Expr)
  /-- Runs statements for each entry of an object. -/
  | forEntries (e : Expr) (key value : String) (body : List Stmt)
  /-- Sets a member of an object. -/
  | put (x key : String) (e : Expr)
  /-- Adds an item to an array. -/
  | push (x : String) (e : Expr)
  /-- Adds all items of another array to an array. -/
  | pushAll (x : String) (e : Expr)
  | remark (text : String)

end

/-- A parameter of a function, with the expression that stands in for it where nothing is given. -/
structure Parameter where
  name : String
  standIn : Option Expr

/-- A function. -/
structure Function where
  name : String
  parameters : List Parameter
  body : List Stmt

/-- A script: functions, statements that are run when it is loaded, and the names that it exports. -/
structure Module where
  functions : List Function
  body : List Stmt
  exported : List String

/-! ## 2. Tokens -/

/-- The marks that characters are. -/
def marks (text : String) : List Token := text.toList.map Token.mark

/-- The tokens of the head of a function of an entry. -/
def entryHead (key value : String) : List Token :=
  marks "([" ++ [.word key] ++ marks "," ++ [.word value] ++ marks "])=>"

mutual

def Expr.tokens : Expr → List Token
  | .name x => [.word x]
  | .missing => [.word "undefined"]
  | .nothing => [.word "null"]
  | .text value => [.text value]
  | .number value => [.word (toString value)]
  | .group e => marks "(" ++ e.tokens ++ marks ")"
  | .object fields => marks "\x7b" ++ fieldTokens fields ++ marks "\x7d"
  | .noItems => marks "[]"
  | .member e field => e.tokens ++ marks "." ++ [.word field]
  | .plus a b => a.tokens ++ marks "+" ++ b.tokens
  | .both a b => a.tokens ++ marks "&&" ++ b.tokens
  | .same a b => a.tokens ++ marks "===" ++ b.tokens
  | .choose condition yes no => condition.tokens ++ marks "?" ++ yes.tokens ++ marks ":" ++ no.tokens
  | .method e name argument => e.tokens ++ marks "." ++ [.word name] ++ marks "(" ++ argument.tokens ++ marks ")"
  | .call function arguments => [.word function] ++ marks "(" ++ argumentTokens arguments ++ marks ")"
  | .eachEntry e key value body =>
    [.word "Object"] ++ marks "." ++ [.word "entries"] ++ marks "(" ++ e.tokens ++ marks ")." ++ [.word "map"] ++
      marks "(" ++ entryHead key value ++ body.tokens ++ marks ")"
  | .eachEntryBy e key value body =>
    [.word "Object"] ++ marks "." ++ [.word "entries"] ++ marks "(" ++ e.tokens ++ marks ")." ++ [.word "map"] ++
      marks "(" ++ entryHead key value ++ marks "\x7b" ++ bodyTokens body ++ marks "\x7d)"
  | .markup tag attributes [] => marks "<" ++ [.word tag] ++ attributeTokens attributes ++ marks "/>"
  | .markup tag attributes (child :: children) =>
    marks "<" ++ [.word tag] ++ attributeTokens attributes ++ marks ">" ++ child.tokens ++ childTokens children ++
      marks "</" ++ [.word tag] ++ marks ">"

def fieldTokens : List (String × Expr) → List Token
  | [] => []
  | [(field, e)] => [.word field] ++ marks ":" ++ e.tokens
  | (field, e) :: rest => [.word field] ++ marks ":" ++ e.tokens ++ marks "," ++ fieldTokens rest

def argumentTokens : List Expr → List Token
  | [] => []
  | [e] => e.tokens
  | e :: rest => e.tokens ++ marks "," ++ argumentTokens rest

def attributeTokens : List (String × Expr) → List Token
  | [] => []
  | (name, e) :: rest => [.word name] ++ marks "=\x7b" ++ e.tokens ++ marks "\x7d" ++ attributeTokens rest

def childTokens : List Child → List Token
  | [] => []
  | child :: rest => child.tokens ++ childTokens rest

def Child.tokens : Child → List Token
  | .braced e => marks "\x7b" ++ e.tokens ++ marks "\x7d"
  | .words text => lineTokens text.toList

def bodyTokens : List Stmt → List Token
  | [] => []
  | s :: rest => s.tokens ++ bodyTokens rest

def Stmt.tokens : Stmt → List Token
  | .constant x e => [.word "const", .word x] ++ marks "=" ++ e.tokens ++ marks ";"
  | .ifTrue condition body =>
    [.word "if"] ++ marks "(" ++ condition.tokens ++ marks ")\x7b" ++ bodyTokens body ++ marks "\x7d"
  | .give e => [.word "return"] ++ e.tokens ++ marks ";"
  | .forEntries e key value body =>
    [.word "Object"] ++ marks "." ++ [.word "entries"] ++ marks "(" ++ e.tokens ++ marks ")." ++ [.word "forEach"] ++
      marks "(" ++ entryHead key value ++ marks "\x7b" ++ bodyTokens body ++ marks "\x7d);"
  | .put x key e => [.word x] ++ marks "[" ++ [.word key] ++ marks "]=" ++ e.tokens ++ marks ";"
  | .push x e => [.word x] ++ marks "." ++ [.word "push"] ++ marks "(" ++ e.tokens ++ marks ");"
  | .pushAll x e => [.word x] ++ marks "." ++ [.word "push"] ++ marks "(..." ++ e.tokens ++ marks ");"
  | .remark text => [.comment text]

end

/-- Tokens with commas between them. -/
def listTokens (items : List (List Token)) : List Token := (items.intersperse (marks ",")).flatten

def Parameter.tokens (p : Parameter) : List Token :=
  match p.standIn with
  | none => [.word p.name]
  | some e => [.word p.name] ++ marks "=" ++ e.tokens

def Function.tokens (f : Function) : List Token :=
  [.word "function", .word f.name] ++ marks "(" ++ listTokens (f.parameters.map Parameter.tokens) ++ marks ")\x7b" ++
    bodyTokens f.body ++ marks "\x7d"

def Module.tokens (m : Module) : List Token :=
  m.functions.flatMap Function.tokens ++ bodyTokens m.body ++ [.word "export"] ++ marks "\x7b" ++
    listTokens (m.exported.map fun x => [.word x]) ++ marks "\x7d;"

end RouteScaffold.Script
