import RouteScaffold.EnvFile.Value
import RouteScaffold.Environment
import RouteScaffold.Files.Disk
import RouteScaffold.Text.Blank

/-!
# Environment files

An environment file sets variables, one a line, written `NAME=VALUE`; `export` may stand before the name. A
variable that is set already keeps its value. `EnvFile.load` loads the environment files of a directory.
-/

namespace RouteScaffold.EnvFile

/-! ## 1. One line -/

/-- The rest of a line, and how many bytes of it are read. -/
structure Cursor where
  rest : List Char
  index : Nat

/-- How many bytes the characters take. -/
def bytes (chars : List Char) : Nat := chars.foldr (fun c n => c.utf8Size + n) 0

/-- Passes over blanks. -/
def Cursor.skip (at_ : Cursor) : Cursor :=
  ⟨at_.rest.dropWhile Text.isBlank, at_.index + bytes (at_.rest.takeWhile Text.isBlank)⟩

/-- Reads a name. -/
def Cursor.name? (at_ : Cursor) : Option (String × Cursor) :=
  let isPart (c : Char) : Bool := c.isAlphanum || c == '_' || c == '.'
  match at_.rest with
  | c :: _ =>
    if c.isAlpha || c == '_' then
      let name := at_.rest.takeWhile isPart
      some (String.ofList name, ⟨at_.rest.dropWhile isPart, at_.index + name.length⟩)
    else none
  | [] => none

/-- Passes over the sign between name and value. -/
def Cursor.equals? (at_ : Cursor) : Option Cursor :=
  match at_.rest with
  | '=' :: rest => some ⟨rest, at_.index + 1⟩
  | _ => none

/-- The place that a reading has come to, or the fault where it stopped. -/
def need {α : Type} (line : String) (at_ : Cursor) : Option α → Except Fault α
  | some value => .ok value
  | none => .error ⟨line, at_.index⟩

/-- Reads the name of a line up to the value. A name `export` without value stands before the name proper. -/
def readName (line : String) (at_ : Cursor) : Except Fault (String × Cursor) := do
  let (name, next) ← need line at_ at_.name?
  let next := next.skip
  match next.equals? with
  | some next => .ok (name, next)
  | none =>
    if name = "export" then
      let (name, next) ← need line next next.name?
      let next := next.skip
      let next ← need line next next.equals?
      .ok (name, next)
    else .error ⟨line, next.index⟩

/-- Is there nothing but a comment? -/
def Cursor.isAtEnd (at_ : Cursor) : Bool := at_.rest.isEmpty || at_.rest.head? == some '#'

/-- Reads a line: the variable that it sets, if it sets one. -/
def readLine (lookup : String → Option String) (line : List Char) :
    Except Fault (Option (String × String)) := do
  let text := String.ofList line
  let start : Cursor := (Cursor.mk (Text.trimEnd line) 0).skip
  if start.isAtEnd then .ok none
  else
    let (name, next) ← readName text start
    let next := next.skip
    if next.isAtEnd then .ok (some (name, ""))
    else
      let value ← Value.read lookup (String.ofList next.rest)
      .ok (some (name, value))

/-! ## 2. Files -/

/-- Why an environment file is not loaded. -/
inductive Cause where
  | line (fault : Fault)
  | system (error : SystemError)
  deriving DecidableEq, Repr

/-- The cause as a sentence. -/
def Cause.message : Cause → String
  | .line fault => s!"Error parsing line: '{fault.line}', error at line index: {fault.index}"
  | .system error => error.message

/-- The file that is not loaded, and why. -/
structure Error where
  path : String
  cause : Cause
  deriving DecidableEq, Repr

/-- The error as a sentence. -/
def Error.message (e : Error) : String := s!"failed to load {e.path}: {e.cause.message}"

/-- The physical lines of some bytes, each with its line end. -/
def physicalLines (content : List UInt8) : List (List UInt8) :=
  match content with
  | [] => []
  | byte :: rest =>
    if byte == 10 then [byte] :: physicalLines rest
    else
      match physicalLines rest with
      | [] => [[byte]]
      | line :: lines => (byte :: line) :: lines

/-- The content of a file without the mark that may stand at the front of a text. -/
def withoutMark : List UInt8 → List UInt8
  | 0xEF :: 0xBB :: 0xBF :: rest => rest
  | content => content

/-- The lines in the content of a file. -/
def linesOf (content : ByteArray) : List Line.Found :=
  let physical := physicalLines (withoutMark content.toList)
  Line.all Text.isBlank [] .nothing <|
    physical.map fun line => (String.fromUTF8? ⟨line.toArray⟩).map String.toList

/-- Sets the variables of some lines; what is set before a line that is not read stays set. -/
def provideAll (environment : Environment) : List Line.Found → Environment × Option Cause
  | [] => (environment, none)
  | .notText :: _ => (environment, some (.system .notText))
  | .unfinished text :: _ =>
    (environment, some (.line ⟨String.ofList text, bytes text⟩))
  | .line text :: rest =>
    match readLine environment.value? text with
    | .error fault => (environment, some (.line fault))
    | .ok none => provideAll environment rest
    | .ok (some (name, value)) => provideAll (environment.provide name value) rest

/-- Loads a file. -/
def loadFile (d : Disk) (environment : Environment) (path : String) : Environment × Option Cause :=
  match d.read path with
  | .error e => (environment, some (.system e))
  | .ok content => provideAll environment (linesOf content)

/-! ## 3. Directories -/

/-- The environment files of a directory, in the order in which they are loaded. -/
def candidates (environment : Environment) (directory : String) : List String :=
  let names := [".env", ".env.local"] ++ ((environment.value? "NODE_ENV").map (".env." ++ ·)).toList
  names.map (Path.join directory)

/-- Loads some files; gives those that were loaded, or the first that was not. -/
def loadAll (d : Disk) (environment : Environment) : List String →
    Environment × Except Error (List String)
  | [] => (environment, .ok [])
  | path :: rest =>
    match loadFile d environment path with
    | (environment, some cause) => (environment, .error ⟨path, cause⟩)
    | (environment, none) =>
      let (environment, loaded) := loadAll d environment rest
      (environment, loaded.map (path :: ·))

/-- Loads the environment files of a directory that are there. -/
def load (d : Disk) (environment : Environment) (directory : String) :
    Environment × Except Error (List String) :=
  loadAll d environment ((candidates environment directory).filter d.isFile)

end RouteScaffold.EnvFile
