import RouteScaffold.EnvFile.Line
import RouteScaffold.Text.Category

/-!
# Values in environment files

The value of a variable is written plainly or in quotes. In single quotes every character stands for itself; elsewhere
a backslash escapes a character, and `$NAME` and `${NAME}` stand for the values of variables. Behind a blank
only a comment may follow.
-/

namespace RouteScaffold.EnvFile.Value

/-! ## 1. Reading character by character -/

/-- What the characters so far have opened. `quoted` says whether a double quote is open. -/
inductive Mode where
  | plain (quoted : Bool)
  | single
  | escaped (quoted : Bool)
  /-- In the name of a variable, which is given in reverse. -/
  | name (quoted braced : Bool) (letters : List Char)
  /-- Behind the value. -/
  | behind
  deriving DecidableEq, Repr

/-- How far a value is read: what is open, and the value so far in reverse. -/
structure Progress where
  mode : Mode
  value : List Char
  deriving DecidableEq, Repr

/-- What comes of one more character. -/
inductive Outcome where
  | more (p : Progress)
  /-- A comment: the value is at its end. -/
  | done
  | fault

variable (lookup : String → Option String)

/-- The value so far with the value of a variable behind it. -/
def withVariable (letters value : List Char) : List Char :=
  ((lookup (String.ofList letters.reverse)).getD "").toList.reverse ++ value

/-- The character that an escaped character stands for. -/
def unescape? (c : Char) : Option Char :=
  if c == '\\' || c == '\'' || c == '"' || c == '$' || c == ' ' then some c
  else if c == 'n' then some '\n'
  else none

/-- Reads a character outside of names and single quotes. -/
def stepPlain (quoted : Bool) (value : List Char) (c : Char) : Progress :=
  if c == '$' then ⟨.name quoted false [], value⟩
  else if c == '\\' then ⟨.escaped quoted, value⟩
  else if c == '"' then ⟨.plain (!quoted), value⟩
  else if quoted then ⟨.plain true, c :: value⟩
  else if c == '\'' then ⟨.single, value⟩
  else if c == ' ' || c == '\t' then ⟨.behind, value⟩
  else ⟨.plain false, c :: value⟩

/-- Reads a character in a name. The character that ends a plain name is part of the value. -/
def stepName (quoted braced : Bool) (letters value : List Char) (c : Char) : Progress :=
  if Text.isLetterOrNumber c then ⟨.name quoted braced (c :: letters), value⟩
  else if braced then
    if c == '}' then ⟨.plain quoted, withVariable lookup letters value⟩
    else ⟨.name quoted true (c :: letters), value⟩
  else if c == '{' && letters.isEmpty then ⟨.name quoted true [], value⟩
  else
    let value := withVariable lookup letters value
    if c == '$' then ⟨.name quoted false [], value⟩ else ⟨.plain quoted, c :: value⟩

/-- Reads one character. -/
def step (p : Progress) (c : Char) : Outcome :=
  match p.mode with
  | .behind =>
    if c == ' ' || c == '\t' then .more p else if c == '#' then .done else .fault
  | .escaped quoted =>
    match unescape? c with
    | some c => .more ⟨.plain quoted, c :: p.value⟩
    | none => .fault
  | .single => .more (if c == '\'' then ⟨.plain false, p.value⟩ else ⟨.single, c :: p.value⟩)
  | .name quoted braced letters => .more (stepName lookup quoted braced letters p.value c)
  | .plain quoted => .more (stepPlain quoted p.value c)

/-! ## 2. Whole values -/

/-- The value at the end of its text; none if a quote or a brace is still open. -/
def finish? (p : Progress) : Option String :=
  let text (value : List Char) : String := String.ofList value.reverse
  match p.mode with
  | .plain false | .escaped false | .behind => some (text p.value)
  | .name false false letters => some (text (withVariable lookup letters p.value))
  | _ => none

/-- Reads on from the character at `index`. -/
def run (input : String) : Progress → Nat → List Char → Except Fault String
  | p, _, [] =>
    match finish? lookup p with
    | some value => .ok value
    | none => .error ⟨input, input.utf8ByteSize - 1⟩
  | p, index, c :: rest =>
    match step lookup p c with
    | .more p => run input p (index + 1) rest
    | .done => .ok (String.ofList p.value.reverse)
    | .fault => .error ⟨input, index⟩

/-- Reads the text of a value. -/
def read (input : String) : Except Fault String :=
  run lookup input ⟨.plain false, []⟩ 0 input.toList

end RouteScaffold.EnvFile.Value
