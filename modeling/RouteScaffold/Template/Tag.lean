import RouteScaffold.Document.Json
import RouteScaffold.Template.Syntax

/-!
# Reading tags

The inside of a tag: names, ways to values, literals and nested calls between optional blanks, and a `~` at
either end that takes away the blanks of the text there. `Tag.read?` reads the tag that a text begins with,
from its opening braces to its closing ones; it gives nothing where the text is no tag.
-/

namespace RouteScaffold.Template

/-! ## 1. Characters -/

/-- A blank of a tag. -/
def isBlank (c : Char) : Bool := c == ' ' || c == '\t' || c == '\n' || c == '\r'

/-- A character of a helper's name. -/
def isNameChar (c : Char) : Bool :=
  c.isAlphanum || "_.@$<>-".toList.contains c || 0x80 ≤ c.toNat

/-- A character of a step on the way to a value. -/
def isStepChar (c : Char) : Bool :=
  c.isAlphanum || "_-$:?".toList.contains c || 0x80 ≤ c.toNat

/-- The characters behind blanks. -/
def skipBlanks (s : List Char) : List Char := s.dropWhile isBlank

/-- A name at the front, and what follows. -/
def takeName? (s : List Char) : Option (String × List Char) :=
  let name := s.takeWhile isNameChar
  if name.isEmpty then none else some (String.ofList name, s.drop name.length)

/-- What follows a word at the front. -/
def dropWord? (word s : List Char) : Option (List Char) :=
  if word.isPrefixOf s then some (s.drop word.length) else none

/-! ## 2. Ways to values -/

/-- A step on the way, as it is or in brackets, and what follows. -/
def takeStep? (s : List Char) : Option (String × List Char) :=
  match s with
  | '[' :: more =>
    let name := more.takeWhile (· != ']')
    match more.drop name.length with
    | ']' :: rest => some (String.ofList name, rest)
    | _ => none
  | _ =>
    let name := s.takeWhile isStepChar
    if name.isEmpty then none else some (String.ofList name, s.drop name.length)

/-- Is it a mark between steps? -/
def isSeparator (c : Char) : Bool := c == '.' || c == '/'

/-- The further steps of a way, last first, and what follows them. -/
def takeSteps : Nat → List String → List Char → List String × List Char
  | 0, names, s => (names, s)
  | fuel + 1, names, s =>
    match s with
    | c :: more =>
      if isSeparator c then
        match takeStep? more with
        | some (name, rest) => takeSteps fuel (name :: names) rest
        | none => (names, s)
      else (names, s)
    | [] => (names, s)

/-- The steps outwards at the front, and what follows. -/
def takeUps : Nat → Nat → List Char → Nat × List Char
  | 0, up, s => (up, s)
  | fuel + 1, up, s =>
    match s with
    | '.' :: '.' :: c :: rest => if isSeparator c then takeUps fuel (up + 1) rest else (up, s)
    | _ => (up, s)

/-- A way at the front, and what follows. The step `this` leads nowhere. -/
def takeWay? (s : List Char) : Option (Way × List Char) := do
  let afterHere :=
    match s with
    | 't' :: 'h' :: 'i' :: 's' :: c :: rest => if isSeparator c then rest else s
    | '.' :: '/' :: rest => rest
    | _ => s
  let (fromRoot, s1) :=
    match dropWord? ['@', 'r', 'o', 'o', 't'] afterHere with
    | some (c :: rest) => if isSeparator c then (true, rest) else (false, afterHere)
    | _ => (false, afterHere)
  let (isVariable, s2) :=
    match s1 with
    | '@' :: rest => (true, rest)
    | _ => (false, s1)
  let (up, s3) := takeUps s2.length 0 s2
  let (first, s4) ← takeStep? s3
  let (names, rest) := takeSteps s4.length [first] s4
  let names := names.reverse.filter (· != "this")
  let origin :=
    if fromRoot then Origin.root
    else if isVariable then .variable up
    else if afterHere.length < s.length && up == 0 then .scope 0
    else .scope up
  let spelling := String.ofList (s.take (s.length - rest.length))
  some (⟨spelling, origin, names⟩, rest)

/-! ## 3. Operands -/

/-- Does no name character follow? -/
def endsWord (s : List Char) : Bool := !s.head?.any isNameChar

/-- The words that divide a tag. -/
def isKeyword (s : List Char) : Bool :=
  (dropWord? ['a', 's'] s).any endsWord || (dropWord? ['e', 'l', 's', 'e'] s).any endsWord

/-- The characters of a quoted text up to the closing quote, as they are spelled, and what follows. -/
def takeQuoted (quote : Char) : List Char → List Char → Option (List Char × List Char)
  | _, [] => none
  | read, '\\' :: c :: rest => takeQuoted quote (c :: '\\' :: read) rest
  | read, c :: rest => if c = quote then some (read.reverse, rest) else takeQuoted quote (c :: read) rest

/-- A quoted text at the front, and what follows. The escapes are those of JSON. -/
def takeText? (s : List Char) : Option (Document × List Char) := do
  match s with
  | c :: more =>
    if c = '"' ∨ c = '\'' then
      let (inner, rest) ← takeQuoted c [] more
      let spelled := if c = '"' then inner else inner.flatMap fun x => if x = '"' then ['\\', '"'] else [x]
      match Document.Json.read (String.ofList ('"' :: spelled ++ ['"'])) with
      | .ok value => some (value, rest)
      | .error _ => none
    else none
  | [] => none

/-- A number at the front, and what follows. -/
def takeNumber? (s : List Char) : Option (Document × List Char) := do
  let (sign, s1) := match s with
    | '-' :: rest => (['-'], rest)
    | _ => ([], s)
  let whole := s1.takeWhile Char.isDigit
  if whole.isEmpty then none
  else
    let s2 := s1.drop whole.length
    let (fraction, s3) := match s2 with
      | '.' :: rest =>
        let ds := rest.takeWhile Char.isDigit
        ('.' :: ds, rest.drop ds.length)
      | _ => ([], s2)
    if endsWord s3 then
      match Document.Json.read (String.ofList (sign ++ whole ++ fraction)) with
      | .ok value => some (value, s3)
      | .error _ => none
    else none

/-- A word that stands for a value. -/
def takeWordValue? (s : List Char) : Option (Document × List Char) :=
  let word (w : String) (value : Document) : Option (Document × List Char) :=
    (dropWord? w.toList s).bind fun rest => if endsWord rest then some (value, rest) else none
  (word "null" .null <|> word "true" (.bool true)) <|> word "false" (.bool false)

/-- A literal at the front, and what follows. -/
def takeLiteral? (s : List Char) : Option (Document × List Char) :=
  (takeText? s <|> takeNumber? s) <|> takeWordValue? s

/-- What follows the name of an option, `name=`, at the front. -/
def dropOption? (s : List Char) : Option (List Char) := do
  let (_, rest) ← takeName? s
  match skipBlanks rest with
  | '=' :: more => some (skipBlanks more)
  | _ => none

mutual

/-- An operand at the front, and what follows. -/
def takeOperand? : Nat → List Char → Option (Operand × List Char)
  | 0, _ => none
  | fuel + 1, s =>
    if isKeyword s then none
    else
      match takeLiteral? s with
      | some (value, rest) => some (.literal value, rest)
      | none =>
        match s with
        | '(' :: more => takeNested? fuel (skipBlanks more)
        | _ => (takeWay? s).map fun (way, rest) => (.value way, rest)

/-- A nested call behind its opening parenthesis, and what follows its closing one. -/
def takeNested? : Nat → List Char → Option (Operand × List Char)
  | 0, _ => none
  | fuel + 1, s => do
    let (helper, rest) ← takeName? s
    let (operands, rest) := takeOperands fuel (skipBlanks rest)
    match rest with
    | ')' :: rest => some (.call helper operands, rest)
    | _ => none

/-- The operands at the front, and what follows. Options are read and left out. -/
def takeOperands : Nat → List Char → List Operand × List Char
  | 0, s => ([], s)
  | fuel + 1, s =>
    match dropOption? s with
    | some valueAt =>
      match takeOperand? fuel valueAt with
      | some (_, rest) => takeOperands fuel (skipBlanks rest)
      | none => ([], s)
    | none =>
      match takeOperand? fuel s with
      | some (operand, rest) =>
        let (operands, rest) := takeOperands fuel (skipBlanks rest)
        (operand :: operands, rest)
      | none => ([], s)

end

/-! ## 4. Tags -/

/-- What a tag does. -/
inductive Tag.Kind where
  | phrase (phrase : Phrase) (escaped : Bool)
  | begin (helper : String) (operands : List Operand)
  /-- Divides a block; with a helper, what follows is a block of that helper in the other branch. -/
  | divide (next : Option (String × List Operand))
  | finish (helper : String)
  | comment

/-- A tag, and whether it takes away the blanks before and behind it. -/
structure Tag where
  kind : Tag.Kind
  trimBefore : Bool
  trimBehind : Bool

/-- A `~` at the front, and what follows it and blanks. -/
def takeTilde (s : List Char) : Bool × List Char :=
  match skipBlanks s with
  | '~' :: rest => (true, skipBlanks rest)
  | rest => (false, rest)

/-- The closing braces at the front, with their `~`, and what follows. -/
def takeClose? (s : List Char) : Option (Bool × List Char) :=
  let (tilde, rest) := takeTilde s
  match rest with
  | '}' :: '}' :: rest => some (tilde, rest)
  | _ => none

/-- What a writing tag holds at the front, and what follows. -/
def takePhrase? (s : List Char) : Option (Phrase × List Char) :=
  let called := do
    let (helper, rest) ← takeName? s
    let (operands, after) := takeOperands s.length (skipBlanks rest)
    if operands.isEmpty && (dropOption? (skipBlanks rest)).isNone then none
    else some (Phrase.call helper operands, after)
  match called with
  | some found => some found
  | none =>
    match s with
    | '(' :: more =>
      match takeNested? s.length (skipBlanks more) with
      | some (.call helper operands, rest) => some (.call helper operands, rest)
      | _ => none
    | _ => (takeWay? s).map fun (way, rest) => (.name way, rest)

/-- A writing tag behind its opening; in a third pair of braces it does not escape. -/
def readPhrase? (trimBefore : Bool) (s : List Char) : Option (Tag × List Char) := do
  match s with
  | '{' :: more =>
    let (held, rest) ← takePhrase? (skipBlanks more)
    match skipBlanks rest with
    | '}' :: rest =>
      let (trimBehind, rest) ← takeClose? rest
      some (⟨.phrase held false, trimBefore, trimBehind⟩, rest)
    | _ => none
  | '&' :: more =>
    let (held, rest) ← takePhrase? (skipBlanks more)
    let (trimBehind, rest) ← takeClose? rest
    some (⟨.phrase held false, trimBefore, trimBehind⟩, rest)
  | _ =>
    let (held, rest) ← takePhrase? s
    let (trimBehind, rest) ← takeClose? rest
    some (⟨.phrase held true, trimBefore, trimBehind⟩, rest)

/-- A helper's name and operands at the front, and what follows. -/
def takeCall? (s : List Char) : Option (String × List Operand × List Char) := do
  let (helper, rest) ← takeName? s
  let (operands, rest) := takeOperands s.length (skipBlanks rest)
  some (helper, operands, rest)

/-- The text behind the first `stop` at or behind the front. -/
def dropThrough? (stop : List Char) : List Char → Option (List Char)
  | [] => none
  | c :: rest =>
    match dropWord? stop (c :: rest) with
    | some after => some after
    | none => dropThrough? stop rest

/-- A comment behind its `!`: between double dashes it may hold closing braces. -/
def readComment? (s : List Char) : Option (List Char) :=
  let dashed :=
    match skipBlanks s with
    | '-' :: '-' :: more => dropThrough? ['-', '-', '}', '}'] more
    | _ => none
  dashed <|> (dropThrough? ['}', '}'] s)

/-- A dividing tag behind its opening. -/
def readDivide? (trimBefore : Bool) (s : List Char) : Option (Tag × List Char) := do
  let rest ←
    match s with
    | '^' :: rest => some rest
    | _ => dropWord? ['e', 'l', 's', 'e'] s
  match takeClose? rest with
  | some (trimBehind, rest) => some (⟨.divide none, trimBefore, trimBehind⟩, rest)
  | none =>
    let (helper, operands, rest) ← takeCall? (skipBlanks rest)
    let (trimBehind, rest) ← takeClose? rest
    some (⟨.divide (some (helper, operands)), trimBefore, trimBehind⟩, rest)

/-- The tag that a text begins with, and what follows it. -/
def Tag.read? (s : List Char) : Option (Tag × List Char) :=
  match s with
  | '{' :: '{' :: '!' :: more => (readComment? more).map fun rest => (⟨.comment, false, false⟩, rest)
  | '{' :: '{' :: more =>
    let (trimBefore, inner) := takeTilde more
    match inner with
    | '#' :: more => do
      let (helper, operands, rest) ← takeCall? (skipBlanks more)
      let (trimBehind, rest) ← takeClose? rest
      some (⟨.begin helper operands, trimBefore, trimBehind⟩, rest)
    | '/' :: more => do
      let (helper, rest) ← takeName? (skipBlanks more)
      let (trimBehind, rest) ← takeClose? rest
      some (⟨.finish helper, trimBefore, trimBehind⟩, rest)
    | _ => readDivide? trimBefore inner <|> readPhrase? trimBefore inner
  | _ => none

end RouteScaffold.Template
