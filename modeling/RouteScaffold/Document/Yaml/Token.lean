import RouteScaffold.Document.Yaml.Mark

/-!
# Tokens of a YAML text

The tokens of a YAML text, with the indentation made explicit: a block collection is opened by
`blockListStart` or `blockMapStart` and closed by `blockEnd`, and every key of a mapping is announced
by `key`. This module also fixes the classes of characters and the reading position (`Cursor`).
-/

namespace RouteScaffold.Document.Yaml

/-! ## 1. Tokens -/

/-- What a token is. -/
inductive Token.Kind where
  | streamStart
  | streamEnd
  | version (major minor : Nat)
  | tagRule (handle root : String)
  | documentStart
  | documentEnd
  | blockListStart
  | blockMapStart
  | blockEnd
  | flowListStart
  | flowListEnd
  | flowMapStart
  | flowMapEnd
  | blockEntry
  | flowEntry
  | key
  | value
  | alias (name : String)
  | anchor (name : String)
  | tag (handle suffix : String)
  | scalar (value : String) (plain : Bool)
  deriving DecidableEq, Repr

/-- A token and the places of its first character and behind its last. -/
structure Token where
  kind : Token.Kind
  start : Mark
  stop : Mark
  deriving DecidableEq, Repr

/-! ## 2. Classes of characters -/

/-- A character that ends a line. -/
def isBreak (c : Char) : Bool :=
  c == '\n' || c == '\r' || c.toNat == 0x85 || c.toNat == 0x2028 || c.toNat == 0x2029

/-- A space or a tab. -/
def isSpace (c : Char) : Bool := c == ' ' || c == '\t'

/-- A character of a name: letter or digit of ASCII, `_` or `-`. -/
def isNameChar (c : Char) : Bool := c.isAlphanum || c == '_' || c == '-'

/-- A hexadecimal digit. -/
def isHexDigit (c : Char) : Bool :=
  c.isDigit || ('a' ≤ c && c ≤ 'f') || ('A' ≤ c && c ≤ 'F')

/-- The value of a hexadecimal digit. -/
def hexValue (c : Char) : Nat :=
  if c.isDigit then c.toNat - '0'.toNat
  else if 'a' ≤ c && c ≤ 'f' then c.toNat - 'a'.toNat + 10
  else c.toNat - 'A'.toNat + 10

/-- A character that may occur in a text at all. -/
def isPermitted (c : Char) : Bool :=
  let n := c.toNat
  n == 0x09 || n == 0x0A || n == 0x0D || (0x20 ≤ n && n ≤ 0x7E) || n == 0x85 ||
    (0xA0 ≤ n && n ≤ 0xD7FF) || (0xE000 ≤ n && n ≤ 0xFFFD) || 0x10000 ≤ n

/-! ## 3. The reading position -/

/-- The characters to read and the place of the first of them. -/
structure Cursor where
  rest : List Char
  mark : Mark
  deriving Inhabited

namespace Cursor

/-- The next character, if any. -/
def peek? (c : Cursor) : Option Char := c.rest.head?

/-- Is `x` the next character? -/
def at? (c : Cursor) (x : Char) : Bool := c.rest.head? == some x

/-- Does the next character satisfy `p`? -/
def sat (c : Cursor) (p : Char → Bool) : Bool := c.rest.head?.any p

/-- Does nothing follow? -/
def atEnd (c : Cursor) : Bool := c.rest.isEmpty

/-- The `n`-th character ahead. -/
def ahead? (c : Cursor) (n : Nat) : Option Char := c.rest[n]?

/-- A line break or the end follows. -/
def atBreakOrEnd (c : Cursor) : Bool := c.atEnd || c.sat isBreak

/-- A blank, a line break or the end is `n` characters ahead. -/
def blankAhead (c : Cursor) (n : Nat) : Bool :=
  match c.ahead? n with
  | none => true
  | some x => isSpace x || isBreak x

/-- One character of the line further. -/
def skip (c : Cursor) : Cursor :=
  match c.rest with
  | [] => c
  | _ :: rest => ⟨rest, { c.mark with index := c.mark.index + 1, column := c.mark.column + 1 }⟩

/-- `n` characters of the line further. -/
def skipN : Nat → Cursor → Cursor
  | 0, c => c
  | n + 1, c => skipN n c.skip

/-- Behind the line break that follows, with what it reads as: a line feed, but for the separators
of lines and paragraphs. Carriage return and line feed are one break. -/
def readBreak (c : Cursor) : List Char × Cursor :=
  match c.rest with
  | '\r' :: '\n' :: rest => (['\n'], ⟨rest, ⟨c.mark.index + 2, c.mark.line + 1, 0⟩⟩)
  | x :: rest =>
    if isBreak x then
      let read := if x.toNat == 0x2028 || x.toNat == 0x2029 then x else '\n'
      ([read], ⟨rest, ⟨c.mark.index + 1, c.mark.line + 1, 0⟩⟩)
    else ([], c)
  | [] => ([], c)

/-- Behind the line break that follows, if any. -/
def skipBreak (c : Cursor) : Cursor := c.readBreak.2

/-- Behind the characters of the line that satisfy `p`. -/
def skipWhile (p : Char → Bool) (c : Cursor) : Cursor :=
  let n := (c.rest.takeWhile p).length
  ⟨c.rest.drop n, { c.mark with index := c.mark.index + n, column := c.mark.column + n }⟩

/-- The characters of the line that satisfy `p`, and the cursor behind them. -/
def span (p : Char → Bool) (c : Cursor) : List Char × Cursor :=
  (c.rest.takeWhile p, c.skipWhile p)

/-- Does a document mark (`---` or `...`) stand at the start of this line? -/
def atDocumentMark (c : Cursor) : Bool :=
  c.mark.column == 0 && c.blankAhead 3 &&
    (c.rest.take 3 == ['-', '-', '-'] || c.rest.take 3 == ['.', '.', '.'])

end Cursor

end RouteScaffold.Document.Yaml
