import RouteScaffold.Text.Blank

/-!
# Globs

A glob is a pattern for paths: `?` stands for a byte, `*` for any number of them, brackets for a set, and `**` for any
number of directories. Texts are taken byte by byte, with a character for each (`bytesOf`). `Glob.read?` reads the text
of a glob as a list of parts, and `Glob.fits` decides whether a path fits.
-/

namespace RouteScaffold.Git

/-- The bytes of a text, each as the character of its number. -/
def bytesOf (text : List Char) : List Char :=
  text.flatMap fun c => (String.utf8EncodeChar c).map fun byte => Char.ofNat byte.toNat

/-! ## 1. Parts -/

/-- What one item of a bracketed set holds. -/
inductive GlobItem where
  | range (first last : Char)
  /-- A named class. -/
  | named (name : String)
  deriving DecidableEq, Repr

/-- One part of a glob. -/
inductive GlobPart where
  | literal (c : Char)
  /-- One character that does not separate directories. -/
  | one
  /-- Any characters that do not separate directories. -/
  | many
  /-- Any characters. -/
  | all
  /-- Any number of directories with the separators behind them. -/
  | directories
  | set (negated : Bool) (items : List GlobItem)
  deriving DecidableEq, Repr

/-- A glob: its parts in order. -/
abbrev Glob := List GlobPart

/-- Is the character of a named class? -/
def inNamedClass (name : String) (c : Char) : Bool :=
  match name with
  | "alnum" => c.isAlphanum
  | "alpha" => c.isAlpha
  | "blank" => c == ' ' || c == '\t'
  | "cntrl" => c.val < 128 && Text.isControl c
  | "digit" => c.isDigit
  | "graph" => '!' ≤ c && c ≤ '~'
  | "lower" => c.isLower
  | "print" => ' ' ≤ c && c ≤ '~'
  | "punct" => '!' ≤ c && c ≤ '~' && !c.isAlphanum
  | "space" => c.val < 128 && Text.isBlank c
  | "upper" => c.isUpper
  | "xdigit" => c.isDigit || ('a' ≤ c && c ≤ 'f') || ('A' ≤ c && c ≤ 'F')
  | _ => false

/-- Is the character in the item? -/
def GlobItem.holds : GlobItem → Char → Bool
  | .range first last, c => first ≤ c && c ≤ last
  | .named name, c => inNamedClass name c

namespace Glob

/-! ## 2. Reading -/

/-- Reads the items of a set behind its opening bracket; `first` says whether none was read yet, so that
a closing bracket stands for itself. -/
def readItems (first : Bool) : Nat → List Char → Option (List GlobItem × List Char)
  | 0, _ => none
  | fuel + 1, text =>
    let next (item : GlobItem) (rest : List Char) : Option (List GlobItem × List Char) :=
      (readItems false fuel rest).map fun (items, rest) => (item :: items, rest)
    let ranged (c : Char) (rest : List Char) : Option (List GlobItem × List Char) :=
      match rest with
      | '-' :: ']' :: _ => next (.range c c) rest
      | '-' :: '\\' :: last :: rest => next (.range c last) rest
      | '-' :: last :: rest => next (.range c last) rest
      | rest => next (.range c c) rest
    match text with
    | [] => none
    | ']' :: rest => if first then ranged ']' rest else some ([], rest)
    | '[' :: ':' :: rest =>
      match rest.dropWhile (· != ':') with
      | ':' :: ']' :: behind => next (.named (String.ofList (rest.takeWhile (· != ':')))) behind
      | _ => ranged '[' (':' :: rest)
    | '\\' :: c :: rest => ranged c rest
    | c :: rest => ranged c rest

/-- Reads a set behind its opening bracket. -/
def readSet (fuel : Nat) : List Char → Option (GlobPart × List Char)
  | '!' :: rest => (readItems true fuel rest).map fun (items, rest) => (.set true items, rest)
  | '^' :: rest => (readItems true fuel rest).map fun (items, rest) => (.set true items, rest)
  | rest => (readItems true fuel rest).map fun (items, rest) => (.set false items, rest)

/-- Reads the parts of a glob. `whole` says whether whole paths are to fit, so that directories count, and
`edge` whether the place is at the front of a component. A set that is not closed gives nothing. -/
def readParts (whole : Bool) : Nat → Bool → List Char → Option Glob
  | 0, _, _ => some []
  | _, _, [] => some []
  | fuel + 1, edge, c :: rest =>
    match c, rest with
    | '\\', c :: rest => (readParts whole fuel false rest).map (.literal c :: ·)
    | '?', rest => (readParts whole fuel false rest).map (.one :: ·)
    | '[', rest => do
      let (set, rest) ← readSet fuel rest
      (readParts whole fuel false rest).map (set :: ·)
    | '*', '*' :: rest =>
      let behind := rest.dropWhile (· == '*')
      match whole && edge, behind with
      | true, [] => some [.all]
      | true, '/' :: rest => (readParts whole fuel true rest).map (.directories :: ·)
      | _, behind =>
        (readParts whole fuel false behind).map ((if whole then .many else .all) :: ·)
    | '*', rest => (readParts whole fuel false rest).map ((if whole then .many else .all) :: ·)
    | c, rest => (readParts whole fuel (c == '/') rest).map (.literal c :: ·)

/-- Reads the text of a glob; none if it fits no path. -/
def read? (whole : Bool) (text : List Char) : Option Glob :=
  readParts whole (text.length + 1) true text

/-! ## 3. Fitting -/

/-- Does `fits` hold of the text behind some characters that satisfy `p`? -/
def somewhere (p : Char → Bool) (fits : List Char → Bool) : List Char → Bool
  | [] => fits []
  | c :: rest => fits (c :: rest) || (p c && somewhere p fits rest)

/-- Does `fits` hold of the text, or of what is behind some separator in it? -/
def behindDirectories (fits : List Char → Bool) : List Char → Bool
  | [] => fits []
  | text => fits text || later text
where
  /-- Behind a separator. -/
  later : List Char → Bool
    | [] => false
    | c :: rest => (c == '/' && fits rest) || later rest

/-- Does the text fit the glob? -/
def fits (whole : Bool) : Glob → List Char → Bool
  | [], text => text.isEmpty
  | .all :: rest, text => somewhere (fun _ => true) (fits whole rest) text
  | .many :: rest, text => somewhere (· != '/') (fits whole rest) text
  | .directories :: rest, text => behindDirectories (fits whole rest) text
  | .literal c :: rest, text =>
    match text with
    | [] => false
    | d :: text => c == d && fits whole rest text
  | .one :: rest, text =>
    match text with
    | [] => false
    | d :: text => !(whole && d == '/') && fits whole rest text
  | .set negated items :: rest, text =>
    match text with
    | [] => false
    | d :: text =>
      (items.any (·.holds d) != negated) && !(whole && d == '/') && fits whole rest text

end Glob

end RouteScaffold.Git
