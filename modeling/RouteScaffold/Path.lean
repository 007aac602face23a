/-!
# Paths

A path is a text with `/` between its components. This module reads a path as a list of
`Component`s, joins paths, and decides which paths stay below a base directory (`below?`).
A repeated `/` and a `.` after the first place add no component.
-/

namespace RouteScaffold.Path

/-! ## 1. Components -/

/-- One step of a path. -/
inductive Component where
  | root
  | current
  | parent
  | normal (name : String)
  deriving DecidableEq, Repr, Inhabited

/-- The pieces of a text between its `/`; always at least one. -/
def pieces : List Char → List (List Char)
  | [] => [[]]
  | c :: rest =>
    if c = '/' then [] :: pieces rest
    else
      match pieces rest with
      | [] => [[c]]
      | piece :: more => (c :: piece) :: more

/-- The component that a piece after the first place adds, if any. -/
def component? (piece : List Char) : Option Component :=
  if piece = [] ∨ piece = ['.'] then none
  else if piece = ['.', '.'] then some .parent
  else some (.normal (String.ofList piece))

/-- Does the path start at the root? -/
def isAbsolute (path : String) : Bool := path.toList.head? == some '/'

/-- The components of a path in order. A leading `.` counts, every later one does not. -/
def components (path : String) : List Component :=
  let parts := pieces path.toList
  let lead :=
    if isAbsolute path then [Component.root]
    else if parts.head? = some ['.'] then [Component.current]
    else []
  lead ++ parts.filterMap component?

/-- The text of a component. -/
def Component.text : Component → String
  | .root => "/"
  | .current => "."
  | .parent => ".."
  | .normal name => name

/-- The path with exactly one `/` between the texts of its components. -/
def toUnix (path : String) : String := "/".intercalate ((components path).map Component.text)

/-! ## 2. Parts of a path -/

/-- The last component, if it is a name. -/
def fileName? (path : String) : Option String :=
  match (components path).getLast? with
  | some (.normal name) => some name
  | _ => none

/-- What follows the last dot of the file name, unless that dot is its first character. -/
def extension? (path : String) : Option String := do
  let name ← fileName? path
  let tail := name.toList.reverse.takeWhile (· != '.')
  let head := name.toList.reverse.dropWhile (· != '.')
  match head with
  | '.' :: _ :: _ => some (String.ofList tail.reverse)
  | _ => none

/-- A path split at its front: the root or a leading `.`, and the pieces after it. -/
def body (path : String) : String × List (List Char) :=
  match pieces path.toList with
  | [] => ("", [])
  | first :: rest =>
    if isAbsolute path then ("/", rest)
    else if first = ['.'] then (".", rest)
    else ("", first :: rest)

/-- The pieces without those at the end that add no component. -/
def trimPieces (parts : List (List Char)) : List (List Char) :=
  (parts.reverse.dropWhile fun piece => (component? piece).isNone).reverse

/-- A front and the pieces after it, written as a path. -/
def ofBody (lead : String) (parts : List (List Char)) : String :=
  let tail := "/".intercalate (parts.map String.ofList)
  if lead = "." ∧ parts ≠ [] then "./" ++ tail else lead ++ tail

/-- The path without its last component, spelled as in the path; none for the empty path and for
the root. -/
def parent? (path : String) : Option String :=
  let (lead, parts) := body path
  match trimPieces parts with
  | [] => if lead = "." then some "" else none
  | kept => some (ofBody lead (trimPieces kept.dropLast))

/-- The pieces behind the first `n` that add a component. -/
def dropPieces : Nat → List (List Char) → List (List Char)
  | 0, parts => parts
  | _, [] => []
  | n + 1, piece :: rest => if (component? piece).isSome then dropPieces n rest else dropPieces (n + 1) rest

/-- The path as seen from the directory `base`, spelled as in the path; none unless the path begins with
the components of `base`. -/
def from? (base path : String) : Option String :=
  if (components base).isPrefixOf (components path) then
    let (_, parts) := body path
    let passed := ((body base).2.filterMap component?).length
    let rest := (dropPieces passed parts).dropWhile fun piece => (component? piece).isNone
    some (ofBody "" (trimPieces rest))
  else none

/-! ## 3. Joining -/

/-- The path, read from the directory `base`; an absolute path is itself. -/
def join (base path : String) : String :=
  if isAbsolute path then path
  else if base.isEmpty || base.endsWith "/" then base ++ path
  else base ++ "/" ++ path

/-- The path below `base`: none for an absolute path and for a path with a `..`. -/
def below? (base path : String) : Option String :=
  if isAbsolute path || (components path).contains .parent then none
  else some (join base path)

end RouteScaffold.Path
