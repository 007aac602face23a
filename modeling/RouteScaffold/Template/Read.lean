import RouteScaffold.Template.Tag
import RouteScaffold.Text.Blank

/-!
# Reading templates

A template is read in two steps. `pieces?` divides the text into tags and the texts between them and takes
away the blanks that do not count: those beside a `~`, and the whole line of a block tag or a comment that
stands alone on it. `Template.read?` puts the tags together to blocks. A backslash ahead of opening braces
makes them text.
-/

namespace RouteScaffold.Template

/-! ## 1. Pieces -/

/-- A text or a tag. -/
inductive Piece where
  | text (s : List Char)
  | tag (mark : Mark) (kind : Tag.Kind)

/-- The place behind a character. -/
def Mark.next (m : Mark) (c : Char) : Mark :=
  if c = '\n' then ⟨m.line + 1, 1⟩ else ⟨m.line, m.column + 1⟩

/-- The place behind characters. -/
def Mark.after (m : Mark) (s : List Char) : Mark := s.foldl Mark.next m

/-- A text up to the next tag: what it reads as, how it is spelled, and what follows. Both are held last
character first. -/
def takeText : Nat → List Char → List Char → List Char → List Char × List Char × List Char
  | 0, read, spelled, s => (read, spelled, s)
  | fuel + 1, read, spelled, s =>
    match s with
    | [] => (read, spelled, [])
    | '{' :: '{' :: _ => (read, spelled, s)
    | '\\' :: '{' :: '{' :: '{' :: '{' :: rest =>
      takeText fuel ('{' :: '{' :: '{' :: '{' :: read) ('{' :: '{' :: '{' :: '{' :: '\\' :: spelled) rest
    | '\\' :: '{' :: '{' :: rest =>
      takeText fuel ('{' :: '{' :: read) ('{' :: '{' :: '\\' :: spelled) rest
    | '\\' :: rest =>
      let more := rest.takeWhile (· == '\\')
      let behind := rest.drop more.length
      if !more.isEmpty && ['{', '{'].isPrefixOf behind then
        takeText fuel (more ++ read) (more ++ '\\' :: spelled) behind
      else takeText fuel ('\\' :: read) ('\\' :: spelled) rest
    | c :: rest => takeText fuel (c :: read) (c :: spelled) rest

/-- A blank within a line. -/
def isLineBlank (c : Char) : Bool := c == ' ' || c == '\t'

/-- A line end. -/
def isLineEnd (c : Char) : Bool := c == '\n' || c == '\r'

/-- Does the text, held last character first, end in a line that is blank so far? -/
def endsBlankLine (before : List Char) : Bool :=
  match before.dropWhile isLineBlank with
  | [] => true
  | c :: _ => isLineEnd c

/-- Does the text begin with the blank rest of a line? -/
def startsBlankLine (behind : List Char) : Bool :=
  match behind.dropWhile isLineBlank with
  | [] => behind.isEmpty
  | c :: _ => isLineEnd c

/-- The text without a blank rest of a line at its front. -/
def dropLine (s : List Char) : List Char :=
  match s.dropWhile isLineBlank with
  | '\r' :: '\n' :: rest => rest
  | '\n' :: rest => rest
  | rest => rest

/-- What the last tag takes away from the text behind it. -/
structure Trim where
  /-- All blanks at the front. -/
  blanks : Bool
  /-- The rest of the line. -/
  line : Bool

/-- The text behind a tag. -/
def Trim.apply (t : Trim) (s : List Char) : List Char :=
  if t.blanks then Text.trimStart s else if t.line then dropLine s else s

/-- Adds a text to the pieces, which are held last first. A text of blanks that a `~` takes away leaves
the rest of the line to be taken away later. -/
def addText (trim : Trim) (s : List Char) (out : List Piece) : Trim × List Piece :=
  if s.isEmpty then (trim, out)
  else if trim.blanks && s.all isBlank then (trim, out)
  else (⟨trim.blanks, false⟩, .text (trim.apply s) :: out)

/-- Takes characters away at the end of the last piece, if that is a text. -/
def trimLast (p : Char → Bool) (out : List Piece) : List Piece :=
  match out with
  | .text s :: rest => .text ((s.reverse.dropWhile p).reverse) :: rest
  | _ => out

/-- Does the tag vanish with its line when it stands alone on it? -/
def Tag.Kind.isStructural : Tag.Kind → Bool
  | .phrase .. => false
  | _ => true

/-- The pieces of a text, last first. `before` is what was read, last character first. -/
def pieces? : Nat → Trim → List Piece → Mark → List Char → List Char → Option (List Piece)
  | 0, _, _, _, _, _ => none
  | fuel + 1, trim, out, mark, before, s => do
    let (read, spelled, behind) := takeText (s.length + 1) [] [] s
    let (trim, out) := addText trim read.reverse out
    if behind.isEmpty then some out
    else
      let mark := mark.after spelled.reverse
      let before := spelled ++ before
      let (tag, rest) ← Tag.read? behind
      let out := if tag.trimBefore then trimLast Text.isBlank out else out
      let alone := tag.kind.isStructural && startsBlankLine rest && endsBlankLine before
      let out := if alone then trimLast isLineBlank out else out
      let taken := behind.take (behind.length - rest.length)
      let trim : Trim :=
        match tag.kind with
        | .comment => ⟨trim.blanks, alone⟩
        | .phrase .. => ⟨tag.trimBehind, trim.line⟩
        | _ => ⟨tag.trimBehind, alone⟩
      pieces? fuel trim (.tag mark tag.kind :: out) (mark.after taken) (taken.reverse ++ before) rest

/-! ## 2. Blocks -/

/-- A block that is not ended, with the template around it up to its beginning, last part first. -/
structure Open where
  mark : Mark
  helper : String
  operands : List Operand
  /-- The first branch, once it is complete. -/
  body : Option Template
  /-- The block is the other branch of the block around it. -/
  chained : Bool
  /-- What came before it. -/
  around : List (Template → Template)

/-- A template from its parts, last first. -/
def assemble (parts : List (Template → Template)) : Template :=
  parts.foldl (fun rest part => part rest) .nil

/-- The block that an open block becomes with its last branch. -/
def Open.close (o : Open) (last : Template) : Template → Template :=
  match o.body with
  | none => .block o.mark o.helper o.operands last false .nil
  | some body => .block o.mark o.helper o.operands body true last

/-- Ends the innermost block and the blocks it is the other branch of. -/
def closeChain : List Open → Template → Option (Open × Template × List Open)
  | [], _ => none
  | o :: opened, last =>
    if o.chained then closeChain opened (o.close last .nil) else some (o, last, opened)

/-- Puts pieces together. -/
def build? : List Piece → List Open → List (Template → Template) → Option Template
  | [], [], parts => some (assemble parts)
  | [], _ :: _, _ => none
  | .text s :: rest, opened, parts => build? rest opened (.text (String.ofList s) :: parts)
  | .tag mark kind :: rest, opened, parts =>
    match kind with
    | .comment => build? rest opened parts
    | .phrase p escaped => build? rest opened (.phrase mark p escaped :: parts)
    | .begin helper operands =>
      build? rest (⟨mark, helper, operands, none, false, parts⟩ :: opened) []
    | .divide next =>
      match opened with
      | [] => none
      | o :: more =>
        if o.body.isSome then none
        else
          let o := { o with body := some (assemble parts) }
          match next with
          | none => build? rest (o :: more) []
          | some (helper, operands) =>
            build? rest (⟨o.mark, helper, operands, none, true, []⟩ :: o :: more) []
    | .finish helper =>
      match closeChain opened (assemble parts) with
      | none => none
      | some (o, last, opened) =>
        if o.helper = helper then build? rest opened (o.close last :: o.around) else none

end Template

/-- Reads a text as a template; nothing where it is none. -/
def Template.read? (source : String) : Option Template :=
  let s := source.toList
  (Template.pieces? (s.length + 1) ⟨false, false⟩ [] ⟨1, 1⟩ [] s).bind fun pieces =>
    Template.build? pieces.reverse [] []

end RouteScaffold
