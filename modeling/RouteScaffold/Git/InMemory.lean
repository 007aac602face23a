import RouteScaffold.Git.Ignore
import RouteScaffold.Git.Workspace
import RouteScaffold.Text.Blank

/-!
# Repositories in memory

A library that keeps repositories in memory (`Library.inMemory`). Its index holds files with their contents, its objects
are numbered in the order in which they are made, and it has no settings and no clock. What is ignored is said by the
ignore files of the working directory and by the one of the repository.
-/

namespace RouteScaffold.Git

/-! ## 1. States -/

/-- Files by path, in order of the paths. -/
abbrev Tree := List (String × ByteArray)

/-- The files with a file set, in order. -/
def Tree.set (tree : Tree) (path : String) (content : ByteArray) : Tree :=
  match tree with
  | [] => [(path, content)]
  | (p, c) :: rest =>
    if p = path then (path, content) :: rest
    else if path < p then (path, content) :: (p, c) :: rest
    else (p, c) :: set rest path content

/-- An object of a repository. -/
inductive Object where
  | tree (files : Tree)
  | commit (c : CommitObject)

/-- A repository in memory: the files of its index, its objects, each with the number of its place as identifier, and
the commit that `HEAD` leads to. -/
structure Memory where
  bare : Bool
  index : Tree
  objects : List Object
  head : Option ObjectId
  deriving Inhabited

namespace Memory

/-- A repository with nothing in it. -/
def fresh (bare : Bool) : Memory := ⟨bare, [], [], none⟩

/-- The object with an identifier. -/
def object? (s : Memory) (id : ObjectId) : Option Object := s.objects[id.number]?

/-- The commit with an identifier. -/
def commit? (s : Memory) (id : ObjectId) : Option CommitObject :=
  match s.object? id with
  | some (.commit c) => some c
  | _ => none

/-- The files of the tree with an identifier. -/
def tree? (s : Memory) (id : ObjectId) : Option Tree :=
  match s.object? id with
  | some (.tree files) => some files
  | _ => none

/-- The identifier of the next object. -/
def nextId (s : Memory) : ObjectId := .ofNumber s.objects.length

/-- The repository with one more object. -/
def add (s : Memory) (o : Object) : Memory := { s with objects := s.objects ++ [o] }

end Memory

/-! ## 2. The files of a directory -/

/-- The name of the file with rules for what is ignored. -/
def ignoreFile : String := ".gitignore"

/-- The names that lead from a place to another below it, if it is below. -/
def below? (root place : Place) : Option (List String) :=
  if root.isPrefixOf place && root.length < place.length then some (place.drop root.length) else none

/-- The rules of an ignore file, if it is there. -/
def rulesIn (d : Disk) (place : Place) : List IgnoreRule :=
  match d.entry? place with
  | some (.file content) => IgnoreRule.ofContent content
  | _ => []

/-- The rules for what is ignored below a place. Those of the repository are the first of the highest directory. -/
def rulesBelow (d : Disk) (root : Place) : IgnoreRules := fun directory =>
  (if directory.isEmpty then rulesIn d (root ++ [marker, "info", "exclude"]) else []) ++
    rulesIn d (root ++ directory ++ [ignoreFile])

/-- Does the tree have a file below the directory? -/
def reaches (tree : Tree) (names : List String) : Bool :=
  tree.any fun (path, _) => (pathOf names ++ "/").toList.isPrefixOf path.toList

/-- The first directory on the way that has a repository of its own and no file in the tree. `passed` are the
names passed, last first. -/
def nestedOn? (d : Disk) (root : Place) (tree : Tree) (passed : List String) :
    List String → Option (List String)
  | [] => none
  | name :: rest =>
    let names := (name :: passed).reverse
    if isNested d root names && !reaches tree names then some names
    else nestedOn? d root tree (name :: passed) rest

/-- What is in a directory for staging. -/
inductive Candidate where
  | file (path : String) (content : ByteArray)
  /-- A repository of its own. -/
  | nested (path : String)

/-- The path of a candidate. -/
def Candidate.path : Candidate → String
  | .file path _ => path
  | .nested path => path

/-- The candidate of an entry below the place of a repository, if it is one: a file that is not ignored, or is in
the index already, or the directory of another repository. -/
def candidate? (d : Disk) (root : Place) (index : Tree) (place : Place) (entry : Entry) :
    Option Candidate := do
  let names ← below? root place
  match entry with
  | .directory =>
    if names.getLast? = some marker then
      let nested ← nestedOn? d root index [] names.dropLast
      if nested.length + 1 = names.length && !(rulesBelow d root).ignores nested true then
        some (.nested (pathOf nested ++ "/"))
      else none
    else none
  | .file content =>
    if names.any spellsMarker || (nestedOn? d root index [] names.dropLast).isSome then none
    else if index.any (·.1 == pathOf names) || !(rulesBelow d root).ignores names false then
      some (.file (pathOf names) content)
    else none

/-- The candidates below the place of a repository, in order of their paths. -/
def candidates (d : Disk) (root : Place) (index : Tree) : List Candidate :=
  (d.entries.filterMap fun (place, entry) => candidate? d root index place entry).mergeSort
    fun a b => a.path ≤ b.path

/-! ## 3. The index -/

/-- Puts candidates into an index in order, up to a repository of its own, which is no file. -/
def stage (index : Tree) : List Candidate → Except Fault Unit × Tree
  | [] => (.ok (), index)
  | .nested path :: _ => (.error ⟨.other, s!"invalid path: '{path}'"⟩, index)
  | .file path content :: rest => stage (Tree.set index path content) rest

/-- The content of the file of the working directory with a path. -/
def contentAt? (d : Disk) (root : Place) (path : String) : Option ByteArray :=
  d.entries.findSome? fun (place, entry) =>
    match below? root place, entry with
    | some names, .file content => if pathOf names = path && !names.any spellsMarker then some content else none
    | _, _ => none

namespace Memory

/-- Adds the files of the working directory to the index, and takes out those that are gone. -/
def addAll (d : Disk) (root : Place) (s : Memory) : Except Fault Unit × Memory :=
  let found := candidates d root s.index
  let kept := s.index.filter fun (path, _) => found.any (·.path == path)
  let (result, index) := stage kept found
  (result, { s with index })

/-- Brings the index up to the files of the working directory. -/
def updateAll (d : Disk) (root : Place) (s : Memory) : Except Fault Unit × Memory :=
  (.ok (), { s with index := s.index.filterMap fun (path, _) => (contentAt? d root path).map (path, ·) })

/-- The paths in which the index differs from a tree. -/
def differences (s : Memory) (files : Tree) : List String :=
  ((s.index ++ files).map Prod.fst).eraseDups.filter fun path => s.index.lookup path != files.lookup path

/-! ## 4. Messages and authors -/

/-- The blank characters of messages. -/
def isMessageBlank (c : Char) : Bool := c == ' ' || (9 ≤ c.toNat && c.toNat ≤ 13)

/-- Does a paragraph end at a line feed before this text? -/
def endsParagraph (text : List Char) : Bool :=
  match text.dropWhile fun c => isMessageBlank c && c != '\n' with
  | [] => true
  | c :: _ => c == '\n'

/-- The first paragraph of a text. -/
def paragraph : List Char → List Char
  | [] => []
  | c :: rest => if c == '\n' && endsParagraph rest then [] else c :: paragraph rest

/-- The text on one line: blanks with a line feed among them become one space, and those at the end go.
`blanks` are the blanks just passed, in reverse. -/
def oneLine (blanks : List Char) : List Char → List Char
  | [] => []
  | c :: rest =>
    if isMessageBlank c then oneLine (c :: blanks) rest
    else
      let before := if blanks.contains '\n' then [' '] else blanks.reverse
      before ++ c :: oneLine [] rest

/-- The first paragraph of a message, on one line. -/
def summaryOf (message : String) : String :=
  String.ofList (oneLine [] (paragraph (message.toList.dropWhile (· == '\n'))))

/-- Characters that do not stand at the ends of a name or an address. -/
def isFringe (c : Char) : Bool :=
  c.val ≤ 32 || ['.', ',', ':', ';', '<', '>', '"', '\\', '\''].contains c

/-- The text without such characters at its ends. -/
def trim (text : String) : String :=
  String.ofList ((text.toList.dropWhile isFringe).reverse.dropWhile isFringe).reverse

/-- May the text be part of a stamp? -/
def isAllowed (text : String) : Bool :=
  !text.toList.any fun c => c == '<' || c == '>' || c == Char.ofNat 0

/-- The stamp of a name and an address; both have to be there, without angle brackets. -/
def stamp (name email : String) : Except Fault Stamp :=
  let name' := trim name
  let email' := trim email
  if isAllowed name && isAllowed email && !name'.isEmpty && !email'.isEmpty then .ok ⟨some name', some email', 0⟩
  else .error ⟨.other, "Signature cannot have an empty name or email, or angle brackets in them"⟩

/-! ## 5. Objects -/

/-- Makes a commit. The first of its parents has to be the commit that `HEAD` leads to. -/
def commit (author : Stamp) (message : String) (tree : ObjectId) (parents : List ObjectId) (s : Memory) :
    Except Fault ObjectId × Memory :=
  if message.toList.contains (Char.ofNat 0) then
    (.error ⟨.other, "data contained a nul byte that could not be represented as a string"⟩, s)
  else if parents.head? != s.head then
    (.error ⟨.other, "failed to create commit: current tip is not the first parent"⟩, s)
  else
    (.ok s.nextId,
      { s.add (.commit ⟨s.nextId, some (summaryOf message), author, parents, tree⟩) with head := some s.nextId })

/-- A value that has to be there. -/
def orMissing {α : Type} : Option α → Except Fault α
  | some value => .ok value
  | none => .error ⟨.notFound, "object not found"⟩

end Memory

/-! ## 6. The library -/

open Memory in
/-- The library that keeps repositories in memory. -/
def Library.inMemory : Library Memory where
  create bare := .ok (fresh bare)
  reopen s := .ok s
  isBare := Memory.bare
  openIndex _ := .ok ()
  isIndexEmpty s := s.index.isEmpty
  addAll := Memory.addAll
  updateAll := Memory.updateAll
  writeIndex s := (.ok (), s)
  writeTree s := (.ok s.nextId, s.add (.tree s.index))
  head s :=
    match s.head with
    | some id => .ok id
    | none => .error ⟨.unbornBranch, "reference 'refs/heads/master' not found"⟩
  peelToTree s id := (orMissing (s.commit? id)).map CommitObject.tree
  peelToCommit s id := orMissing (s.commit? id)
  findTree s id := (orMissing (s.tree? id)).map fun _ => ()
  findCommit s id := orMissing (s.commit? id)
  diff s id := (orMissing (s.tree? id)).map fun files => (s.differences files).length
  configuredStamp _ := .error ⟨.notFound, "config value 'user.name' was not found"⟩
  stamp _ name email := Memory.stamp name email
  commit author _ message tree parents s := Memory.commit author message tree parents s

end RouteScaffold.Git
