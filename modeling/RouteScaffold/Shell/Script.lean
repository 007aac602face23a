/-!
# Scripts of a shell

A script is a list of simple commands, each linked to the one before it: it runs always, after a success, or after a
failure. A command is made of words, in which variables stand for texts, and of redirections of its outputs.
`Script.read?` reads the text of a script.
-/

namespace RouteScaffold.Shell

/-! ## 1. Scripts -/

/-- A piece of a word. A quoted variable is not split at blanks. -/
inductive Piece where
  | text (chars : List Char)
  | variable (name : String) (quoted : Bool)
  deriving DecidableEq, Repr

/-- A word before its variables are put in. -/
abbrev Word := List Piece

/-- Where a redirection leads to. -/
inductive Target where
  /-- A file, made empty first. -/
  | file (path : Word)
  /-- The end of a file. -/
  | append (path : Word)
  /-- Where another output leads to. -/
  | same (output : Word)
  deriving DecidableEq, Repr

/-- A redirection of the output with a number. -/
structure Redirection where
  output : Nat
  target : Target
  deriving DecidableEq, Repr

/-- A simple command. -/
structure Command where
  words : List Word
  redirections : List Redirection
  deriving DecidableEq, Repr

/-- When a command runs, by what came of the one before. -/
inductive Link where
  | always
  | afterSuccess
  | afterFailure
  deriving DecidableEq, Repr

/-- A script. -/
abbrev Script := List (Link × Command)

/-! ## 2. Tokens -/

/-- A word or an operator. -/
inductive Token where
  | word (w : Word)
  | operator (text : String)
  deriving DecidableEq, Repr

/-- What the next character belongs to. `quoted` tells whether double quotes are open. -/
inductive Mode where
  | plain
  | single
  | double
  | backslash (quoted : Bool)
  | dollar (quoted : Bool)
  | name (quoted : Bool) (read : List Char)
  | braces (quoted : Bool) (read : List Char)
  | comment
  deriving DecidableEq, Repr

/-- How far a text is read: the tokens and the pieces of a word, both last first. -/
structure Reading where
  tokens : List Token
  word : Option Word
  mode : Mode
  /-- Was the last character part of an operator? -/
  inOperator : Bool

namespace Reading

/-- The operators. -/
def operators : List String := [";", "\n", "&&", "||", "&", "|", ">", ">>", ">&", "2>>", "2>&", "<"]

/-- The reading with a piece at the end of the word. -/
def addPiece (r : Reading) (piece : Piece) : Reading :=
  { r with word := some (piece :: r.word.getD []), inOperator := false }

/-- The reading with a character at the end of the word. -/
def addChar (r : Reading) (c : Char) : Reading := r.addPiece (.text [c])

/-- The reading with a variable at the end of the word. -/
def addVariable (r : Reading) (quoted : Bool) (name : List Char) : Reading :=
  r.addPiece (.variable (String.ofList name) quoted)

/-- The mode inside or outside of double quotes. -/
def base (quoted : Bool) : Mode := if quoted then .double else .plain

/-- The reading in a mode. -/
def enter (r : Reading) (mode : Mode) : Reading := { r with mode }

/-- The reading behind the end of a word. -/
def endWord (r : Reading) : Reading :=
  match r.word with
  | none => r
  | some pieces => { r with tokens := .word pieces.reverse :: r.tokens, word := none }

/-- The reading with a character of an operator, which may make the operator before it longer. -/
def addOperator (r : Reading) (c : Char) : Reading :=
  let alone := Token.operator (String.ofList [c]) :: r.tokens
  let tokens := match r.tokens with
    | .operator text :: rest =>
      if r.inOperator && operators.contains (text.push c) then .operator (text.push c) :: rest
      else alone
    | _ => alone
  { r with tokens, inOperator := true }

/-- Does the character begin an operator? -/
def isOperatorChar (c : Char) : Bool := [';', '\n', '&', '|', '>', '<'].contains c

/-- The operator that a redirection begins right behind the number of an output. -/
def numbered? : Option Word → Option String
  | some [.text ['1']] => some ">"
  | some [.text ['2']] => some "2>"
  | _ => none

/-- May the character stand in the name of a variable? -/
def isNameChar (c : Char) : Bool := c.isAlphanum || c == '_'

/-- Does a backslash inside of double quotes escape the character? -/
def isEscapable (c : Char) : Bool := ['$', '"', '\\', '`'].contains c

/-- Is the character a variable of its own? -/
def isShortName (c : Char) : Bool := ['$', '@', '*', '#', '?', '!'].contains c || c.isDigit

/-- Reads a character outside of quotes. -/
def plain (r : Reading) (c : Char) : Reading :=
  if c == '\'' then { r.addPiece (.text []) with mode := .single }
  else if c == '"' then { r.addPiece (.text []) with mode := .double }
  else if c == '\\' then r.enter (.backslash false)
  else if c == '$' then r.enter (.dollar false)
  else if c == '#' && r.word.isNone then r.enter .comment
  else if c == ' ' || c == '\t' then { r.endWord with inOperator := false }
  else if isOperatorChar c then
    match if c == '>' then numbered? r.word else none with
    | some operator =>
      { r with tokens := .operator operator :: r.tokens, word := none, inOperator := true }
    | none => r.endWord.addOperator c
  else r.addChar c

/-- Reads a character inside of double quotes. -/
def double (r : Reading) (c : Char) : Reading :=
  if c == '"' then r.enter .plain
  else if c == '\\' then r.enter (.backslash true)
  else if c == '$' then r.enter (.dollar true)
  else r.addChar c

/-- Reads a character that may be quoted. -/
def character (quoted : Bool) (r : Reading) (c : Char) : Reading :=
  if quoted then r.double c else r.plain c

/-- Reads a character. -/
def step (r : Reading) (c : Char) : Reading :=
  match r.mode with
  | .plain => r.plain c
  | .double => r.double c
  | .single => if c == '\'' then r.enter .plain else r.addChar c
  | .comment => if c == '\n' then (r.enter .plain).plain c else r
  | .backslash quoted =>
    let r := r.enter (base quoted)
    if c == '\n' then r
    else if quoted && !isEscapable c then (r.addChar '\\').addChar c
    else r.addChar c
  | .dollar quoted =>
    if c == '\x7b' then r.enter (.braces quoted [])
    else if isShortName c then (r.addVariable quoted [c]).enter (base quoted)
    else if isNameChar c then r.enter (.name quoted [c])
    else ((r.addChar '$').enter (base quoted)).character quoted c
  | .name quoted read =>
    if isNameChar c then r.enter (.name quoted (c :: read))
    else ((r.addVariable quoted read.reverse).enter (base quoted)).character quoted c
  | .braces quoted read =>
    if c == '\x7d' then (r.addVariable quoted read.reverse).enter (base quoted)
    else r.enter (.braces quoted (c :: read))

/-- The tokens at the end of the text; none if a quote is open. -/
def finish? (r : Reading) : Option (List Token) :=
  let done (r : Reading) : Option (List Token) := some r.endWord.tokens.reverse
  match r.mode with
  | .plain | .comment => done r
  | .name false read => done (r.addVariable false read.reverse)
  | .dollar false => done (r.addChar '$')
  | .backslash false => done (r.addChar '\\')
  | _ => none

end Reading

/-- The tokens of a text. -/
def tokens? (text : String) : Option (List Token) :=
  (text.toList.foldl Reading.step ⟨[], none, .plain, false⟩).finish?

/-! ## 3. Commands -/

/-- The redirection that an operator begins, when its word is known. -/
def redirection? (operator : String) (word : Word) : Option Redirection :=
  match operator with
  | ">" => some ⟨1, .file word⟩
  | ">>" => some ⟨1, .append word⟩
  | ">&" => some ⟨1, .same word⟩
  | "2>" => some ⟨2, .file word⟩
  | "2>>" => some ⟨2, .append word⟩
  | "2>&" => some ⟨2, .same word⟩
  | _ => none

/-- The link that an operator makes. -/
def link? (operator : String) : Option Link :=
  match operator with
  | ";" | "\n" | "&" => some .always
  | "&&" => some .afterSuccess
  | "||" => some .afterFailure
  | _ => none

/-- Puts a command at the end of a script, unless it is empty. -/
def closeCommand (link : Link) (c : Command) (rest : Script) : Script :=
  if c.words.isEmpty && c.redirections.isEmpty then rest else (link, c) :: rest

/-- The commands in tokens; none if a redirection or an operator stands where it cannot. -/
def commands? (link : Link) (c : Command) : List Token → Option Script
  | [] => some (closeCommand link c [])
  | .word w :: rest => commands? link { c with words := c.words ++ [w] } rest
  | .operator text :: .word w :: rest =>
    match redirection? text w with
    | some r => commands? link { c with redirections := c.redirections ++ [r] } rest
    | none => do
      let next ← link? text
      pure (closeCommand link c (← commands? next ⟨[w], []⟩ rest))
  | .operator text :: rest => do
    let next ← link? text
    pure (closeCommand link c (← commands? next ⟨[], []⟩ rest))

/-- Reads the text of a script. -/
def Script.read? (text : String) : Option Script := do commands? .always ⟨[], []⟩ (← tokens? text)

end RouteScaffold.Shell
