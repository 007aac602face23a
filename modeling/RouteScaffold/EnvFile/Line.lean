/-!
# Lines of environment files

A line of an environment file goes on behind a line feed that stands in quotes or behind a backslash. A comment starts
with `#` behind a blank, or at the front of a line. `Line.all` splits a text into such lines.
-/

namespace RouteScaffold.EnvFile

/-- Why a line is not read: its text, and where. -/
structure Fault where
  line : String
  index : Nat
  deriving DecidableEq, Repr

namespace Line

/-! ## 1. What a place of a line is in -/

/-- What the characters so far have opened. -/
inductive Opening where
  | nothing
  /-- Behind a blank. -/
  | blank
  | backslash
  | single
  | singleBackslash
  | double
  | doubleBackslash
  deriving DecidableEq, Repr

/-- What is open behind one more character outside of quotes. -/
def Opening.outside (c : Char) : Opening :=
  if c == '\\' then .backslash
  else if c == '"' then .double
  else if c == '\'' then .single
  else .nothing

/-- What is open behind one more character; `isBlank` tells the blank characters. -/
def Opening.next (isBlank : Char → Bool) : Opening → Char → Opening
  | .nothing, c => if isBlank c && c != '\n' && c != '\r' then .blank else outside c
  | .blank, c => outside c
  | .backslash, _ => .nothing
  | .single, c => if c == '\\' then .singleBackslash else if c == '\'' then .nothing else .single
  | .singleBackslash, _ => .single
  | .double, c => if c == '\\' then .doubleBackslash else if c == '"' then .nothing else .double
  | .doubleBackslash, _ => .double

/-! ## 2. One physical line -/

/-- What a physical line adds, up to a comment, and what is open behind it; none behind a comment. -/
def scan (isBlank : Char → Bool) : Opening → List Char → List Char × Option Opening
  | opening, [] => ([], some opening)
  | opening, c :: rest =>
    if opening = .blank ∧ c = '#' then ([], none)
    else
      let (kept, end_) := scan isBlank (opening.next isBlank c) rest
      (c :: kept, end_)

/-- A line without the line end behind it. -/
def chop (line : List Char) : List Char :=
  match line.reverse with
  | '\n' :: '\r' :: rest => rest.reverse
  | '\n' :: rest => rest.reverse
  | _ => line

/-- Is it a line of nothing but a comment? -/
def isComment (isBlank : Char → Bool) (line : List Char) : Bool :=
  (line.dropWhile isBlank).head? == some '#'

/-! ## 3. All lines -/

/-- A line as it was found, or why there is none. -/
inductive Found where
  | line (text : List Char)
  /-- The text ends within the line. -/
  | unfinished (text : List Char)
  | notText

/-- The lines of some physical lines, each given with its line end, if it is text. `before` is the front of a
line that goes on, and `opening` what is open behind it. -/
def all (isBlank : Char → Bool) (before : List Char) (opening : Opening) :
    List (Option (List Char)) → List Found
  | [] => if opening = .nothing then [] else [.unfinished before]
  | none :: _ => [.notText]
  | some line :: rest =>
    let whole := before ++ line
    if isComment isBlank whole then .line [] :: all isBlank [] .nothing rest
    else
      let (kept, end_) := scan isBlank opening line
      match end_ with
      | none => .line (before ++ kept) :: all isBlank [] .nothing rest
      | some .nothing => .line (chop whole) :: all isBlank [] .nothing rest
      | some opening => all isBlank whole opening rest

end Line

end RouteScaffold.EnvFile
