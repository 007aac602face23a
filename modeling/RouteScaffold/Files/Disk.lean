import RouteScaffold.Files.SystemError
import RouteScaffold.Path

/-!
# Disks

A disk is a tree of directories and files, held as a list of places with what is there. A place is the list
of names that lead to it from the top. Paths are texts; `Disk.find` follows a path from the working directory
and says what is at its end, or why it leads nowhere. The basic operations (`makeDirectory`, `write`, `read`,
`list`, `remove`) answer as an operating system does. What it does not permit is given with the disk: which places may
not be looked at and which may not be changed (`Standpoint.refuses`), whatever is there.
-/

namespace RouteScaffold

/-! ## 1. Disks -/

/-- The names that lead to a place. -/
abbrev Place := List String

/-- What is at a place. -/
inductive Entry where
  | directory
  | file (content : ByteArray)
  deriving Inhabited

/-- What may be refused at a place. -/
inductive Access where
  /-- To read a file or to list a directory. -/
  | look
  /-- To make, to write or to remove what is there. -/
  | change
  deriving DecidableEq, Repr

/-- Where a program stands on a disk, and what is refused it. -/
structure Standpoint where
  /-- The working directory. -/
  here : Place
  refuses : Access → Place → Bool := fun _ _ => false
  deriving Inhabited

/-- A disk, and how a program stands on it. The top is always a directory. -/
structure Disk extends Standpoint where
  entries : List (Place × Entry)
  deriving Inhabited

namespace Disk

/-- A disk with nothing on it. -/
def blank : Disk where
  here := []
  entries := []

/-- What is at a place. -/
def entry? (d : Disk) (place : Place) : Option Entry :=
  if place.isEmpty then some .directory else d.entries.lookup place

/-- The disk with an entry at a place, instead of what is there. -/
def put (d : Disk) (place : Place) (entry : Entry) : Disk :=
  { d with entries := setAt d.entries }
where
  /-- The entries with the entry set. -/
  setAt : List (Place × Entry) → List (Place × Entry)
    | [] => [(place, entry)]
    | (p, e) :: rest => if p = place then (p, entry) :: rest else (p, e) :: setAt rest

/-- The disk without what is at a place and below it. -/
def erase (d : Disk) (place : Place) : Disk :=
  { d with entries := d.entries.filter fun (p, _) => !place.isPrefixOf p }

/-- The name under which a place stands right below a directory, if it does. -/
def childName? (directory place : Place) : Option String :=
  if directory.isPrefixOf place then
    match place.drop directory.length with
    | [name] => some name
    | _ => none
  else none

/-- The entries right below a directory, by name. -/
def children (d : Disk) (directory : Place) : List (String × Entry) :=
  d.entries.filterMap fun (place, entry) => (childName? directory place).map (·, entry)

/-! ## 2. Following paths -/

/-- What is at the end of a path. -/
inductive Found where
  | directory (place : Place)
  | file (place : Place) (content : ByteArray)
  /-- Nothing, in a directory that is there. -/
  | absent (place : Place)

/-- The end of a path: what is there, and whether the path asks for a directory by a `/` at its end. -/
structure Ending where
  found : Found
  slash : Bool

/-- Follows the pieces of a path from a directory. -/
def follow (d : Disk) : Place → List String → Except SystemError Found
  | place, [] => .ok (.directory place)
  | place, piece :: rest =>
    if piece = "." ∨ piece = "" then follow d place rest
    else if piece = ".." then follow d place.dropLast rest
    else if 255 < piece.utf8ByteSize then .error .nameTooLong
    else
      let next := place ++ [piece]
      match d.entry? next with
      | some .directory => follow d next rest
      | some (.file content) => if rest.isEmpty then .ok (.file next content) else .error .notDirectory
      | none => if rest.isEmpty then .ok (.absent next) else .error .notFound

/-- The pieces of a path without the empty ones at its end. -/
def piecesOf (path : String) : List String :=
  (((Path.pieces path.toList).map String.ofList).reverse.dropWhile (· == "")).reverse

/-- Follows a path. -/
def find (d : Disk) (path : String) : Except SystemError Ending :=
  if path.toList.contains (Char.ofNat 0) then .error .zeroInPath
  else if path.isEmpty then .error .notFound
  else if 4095 < path.utf8ByteSize then .error .nameTooLong
  else do
    let start := if Path.isAbsolute path then [] else d.here
    let found ← follow d start (piecesOf path)
    .ok ⟨found, path.endsWith "/"⟩

/-! ## 3. Basic operations -/

/-- Fails where an access is refused. -/
def permit (d : Disk) (access : Access) (place : Place) : Except SystemError Unit :=
  if d.refuses access place then .error .denied else .ok ()

/-- How many bytes the operating system gives a directory. -/
def directorySize : Nat := 4096

/-- The size of what is at the end of a path. -/
def size (d : Disk) (path : String) : Except SystemError Nat := do
  let e ← d.find path
  match e.found with
  | .directory _ => .ok directorySize
  | .file _ content => if e.slash then .error .notDirectory else .ok content.size
  | .absent _ => .error .notFound

/-- Is a directory at the end of the path? -/
def isDirectory (d : Disk) (path : String) : Bool :=
  match d.find path with
  | .ok ⟨.directory _, _⟩ => true
  | _ => false

/-- Is a file at the end of the path? -/
def isFile (d : Disk) (path : String) : Bool :=
  match d.find path with
  | .ok ⟨.file _ _, slash⟩ => !slash
  | _ => false

/-- Is anything at the end of the path? -/
def isThere (d : Disk) (path : String) : Bool := (d.size path).isOk

/-- The bytes of a file. -/
def read (d : Disk) (path : String) : Except SystemError ByteArray := do
  let e ← d.find path
  match e.found with
  | .directory place => do
    d.permit .look place
    .error .isDirectory
  | .file place content =>
    if e.slash then .error .notDirectory
    else do
      d.permit .look place
      .ok content
  | .absent _ => .error .notFound

/-- The text of a file. -/
def readText (d : Disk) (path : String) : Except SystemError String := do
  let content ← d.read path
  match String.fromUTF8? content with
  | some text => .ok text
  | none => .error .notText

/-- Makes a directory in a directory that is there. -/
def makeDirectory (d : Disk) (path : String) : Except SystemError Disk := do
  let e ← d.find path
  match e.found with
  | .directory _ | .file _ _ => .error .exists_
  | .absent place => do
    d.permit .change place
    .ok (d.put place .directory)

/-- Writes a file in a directory that is there, instead of what the file holds. -/
def write (d : Disk) (path : String) (content : ByteArray) : Except SystemError Disk := do
  let e ← d.find path
  match e.found with
  | .directory _ => .error .isDirectory
  | .file place _ =>
    if e.slash then .error .notDirectory
    else do
      d.permit .change place
      .ok (d.put place (.file content))
  | .absent place =>
    if e.slash then .error .isDirectory
    else do
      d.permit .change place
      .ok (d.put place (.file content))

/-- The entries of a directory, by name. -/
def list (d : Disk) (path : String) : Except SystemError (List (String × Entry)) := do
  let e ← d.find path
  match e.found with
  | .directory place => do
    d.permit .look place
    .ok (d.children place)
  | .file _ _ => .error .notDirectory
  | .absent _ => .error .notFound

/-- Removes a file. -/
def remove (d : Disk) (path : String) : Except SystemError Disk := do
  let e ← d.find path
  match e.found with
  | .directory place => do
    d.permit .change place
    .error .isDirectory
  | .file place _ =>
    if e.slash then .error .notDirectory
    else do
      d.permit .change place
      .ok (d.erase place)
  | .absent _ => .error .notFound

end Disk

end RouteScaffold
