import RouteScaffold.Git.Glob

/-!
# Ignored files

An ignore file holds rules, one a line, for the paths below a directory. The last rule that fits a path decides, and
rules of deeper directories go before those of higher ones. What is below an ignored directory is ignored, whatever its
own rules say. Rules and paths are compared byte by byte.
-/

namespace RouteScaffold.Git

/-- A rule of an ignore file. -/
structure IgnoreRule where
  /-- The rule brings back what rules before it ignore. -/
  negated : Bool
  /-- The rule is about directories. -/
  directories : Bool
  /-- The rule is about whole paths, not about single names. -/
  whole : Bool
  /-- The bytes of the rule, each as a character. -/
  text : List Char
  deriving DecidableEq, Repr

namespace IgnoreRule

/-! ## 1. Reading -/

/-- How many backslashes the text has at its end, given in reverse. -/
def backslashes (reversed : List Char) : Nat := (reversed.takeWhile (· == '\\')).length

/-- The text without the blanks at its end that no backslash protects; the text is given in reverse. -/
def trimReversed : List Char → List Char
  | [] => []
  | c :: rest =>
    if (c == ' ' || c == '\t') && backslashes rest % 2 == 0 then trimReversed rest else c :: rest

/-- The text without the backslashes before blanks. -/
def unescapeBlanks : List Char → List Char
  | '\\' :: c :: rest =>
    if Text.isBlank c && c.val < 128 then c :: unescapeBlanks rest
    else '\\' :: unescapeBlanks (c :: rest)
  | c :: rest => c :: unescapeBlanks rest
  | [] => []

/-- The line without one carriage return at its end. -/
def chopReturn (line : List Char) : List Char :=
  match line.reverse with
  | '\r' :: rest => rest.reverse
  | _ => line

/-- The rule of a line, if it holds one. -/
def ofLine? (line : List Char) : Option IgnoreRule :=
  match line with
  | [] => none
  | '#' :: _ => none
  | line =>
    let (negated, text) := match line with
      | '!' :: text => (true, text)
      | text => (false, text)
    let (rooted, text) := match text with
      | '/' :: text => (true, text)
      | text => (false, text)
    let reversed := trimReversed (chopReturn text).reverse
    let (directories, text) := match reversed with
      | '/' :: rest => (true, rest.reverse)
      | reversed => (false, reversed.reverse)
    if reversed.isEmpty then none
    else some ⟨negated, directories, rooted || text.contains '/', unescapeBlanks text⟩

/-- The text without the mark of three bytes that may stand at its front. -/
def withoutMark : List Char → List Char
  | '\u00ef' :: '\u00bb' :: '\u00bf' :: rest => rest
  | text => text

/-- The lines of a text. -/
def lines (text : List Char) : List (List Char) :=
  match text with
  | [] => [[]]
  | c :: rest =>
    if c == '\n' then [] :: lines rest
    else
      match lines rest with
      | [] => [[c]]
      | line :: more => (c :: line) :: more

/-- The rules in the content of an ignore file. -/
def ofContent (content : ByteArray) : List IgnoreRule :=
  (lines (withoutMark (content.toList.map fun byte => Char.ofNat byte.toNat))).filterMap ofLine?

/-! ## 2. Fitting -/

/-- Does the text of the rule fit? -/
def fitsText (rule : IgnoreRule) (text : List Char) : Bool :=
  match Glob.read? rule.whole rule.text with
  | some glob => glob.fits rule.whole text
  | none => false

/-- Does the rule fit a path below the directory of its file? A rule about directories fits a file only by its
whole path, and only below a directory. -/
def fits (rule : IgnoreRule) (names : List String) (isDirectory : Bool) : Bool :=
  let path := bytesOf ("/".intercalate names).toList
  if rule.directories && !isDirectory then
    names.length != 1 && rule.text != path && fitsText rule path
  else if rule.whole then fitsText rule path
  else fitsText rule (bytesOf ((names.getLast?.map String.toList).getD []))

end IgnoreRule

/-! ## 3. Deciding -/

/-- The rules of the ignore file in a directory, which is given by the names that lead to it. -/
abbrev IgnoreRules := List String → List IgnoreRule

namespace IgnoreRules

/-- What the rules in a directory say about a path below it, if a rule fits. -/
def verdict? (rules : IgnoreRules) (directory below : List String) (isDirectory : Bool) : Option Bool :=
  ((rules directory).reverse.find? (·.fits below isDirectory)).map (!·.negated)

/-- Is the path `directory ++ below` ignored by itself? `directory` is the deepest directory on the way; the
rules of each are asked, deepest first. -/
def ignoresAlone (rules : IgnoreRules) (isDirectory : Bool) : List String → List String → Bool
  | reversed, below =>
    match verdict? rules reversed.reverse below isDirectory with
    | some ignored => ignored
    | none =>
      match reversed with
      | [] => false
      | name :: higher => ignoresAlone rules isDirectory higher (name :: below)

/-- Is the path ignored, or a directory on the way to it? `reversed` are the names passed, last first. -/
def ignoresFrom (rules : IgnoreRules) (isDirectory : Bool) (reversed : List String) :
    List String → Bool
  | [] => false
  | [name] => ignoresAlone rules isDirectory reversed [name]
  | name :: rest =>
    ignoresAlone rules true reversed [name] || ignoresFrom rules isDirectory (name :: reversed) rest

/-- Is the path ignored? -/
def ignores (rules : IgnoreRules) (names : List String) (isDirectory : Bool) : Bool :=
  ignoresFrom rules isDirectory [] names

end IgnoreRules

end RouteScaffold.Git
