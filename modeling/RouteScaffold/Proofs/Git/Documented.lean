import RouteScaffold.Git.Workspace
import RouteScaffold.Proofs.Files.Sound

/-!
# What a library for repositories does

What is assumed of a library for repositories is what its functions are documented to do (`Library.Documented`). It is
told in terms of what stands in the index and in the trees of a repository, which a `View` of its states gives.

* `IsFile`, `Entered`: the files of a working directory, and which of them are looked for;
* `View.Added`, `View.Updated`: what adding files to an index does, and bringing it up to them;
* `Library.Keeps`: what every function leaves as it is, and `Library.Intact`: what is needed of a repository.
-/

namespace RouteScaffold.Git

/-! ## 1. Views -/

/-- What stands at a path of an index or a tree: a file with its content, or something that no file is, by its mode and
    its object. -/
inductive Item where
  | file (content : ByteArray)
  | other (mode : Nat) (id : ObjectId)

/-- The commit of another repository, in whose place its directory stands. -/
def Item.link (id : ObjectId) : Item := .other 0o160000 id

/-- What stands at which paths. -/
abbrev Items := String → Option Item

/-- What is in the states of a repository: the items of the index and of the trees, and what is ignored in a working
    directory. -/
structure View (σ : Type) where
  index : σ → Items
  tree? : σ → ObjectId → Option Items
  ignores : σ → Disk → Place → List String → Prop

/-! ## 2. Working directories -/

section Directory

variable (items : Items) (d : Disk) (root : Place)

/-- A file of a working directory: it is below the place of that, and not below a marker. -/
structure IsFile (names : List String) (content : ByteArray) : Prop where
  proper : names ≠ []
  entry : d.entry? (root ++ names) = some (.file content)
  own : ∀ name ∈ names, spellsMarker name = false

/-- A directory is that of another repository: it has a marker, or a link stands in its place, and nothing of what is in
    it is among the items. -/
def Apart (names : List String) : Prop :=
  (isNested d root names = true ∨ ∃ id, items (pathOf names) = some (.link id)) ∧
    ∀ path, (pathOf names ++ "/").toList <+: path.toList → items path = none

/-- No directory on the way to a file is that of another repository. -/
def Entered (names : List String) : Prop :=
  ∀ front, front ≠ [] → front <+: names.dropLast → ¬ Apart items d root front

end Directory

namespace View

variable {σ : Type} (view : View σ) (d : Disk) (root : Place) (s s' : σ)

/-- **Adding the files of a working directory** skips those that are ignored, unless they are in the index already. -/
structure Added : Prop where
  files : ∀ names content, IsFile d root names content → Entered (view.index s) d root names →
    (view.index s (pathOf names) ≠ none ∨ ¬ view.ignores s d root names) →
    view.index s' (pathOf names) = some (.file content)
  /-- What has come to be in the index is one of these files, or another repository. -/
  others : ∀ path, view.index s' path ≠ none → view.index s path ≠ none ∨ ∃ names, names ≠ [] ∧ path = pathOf names ∧
    ((∃ content, IsFile d root names content ∧ Entered (view.index s) d root names ∧ ¬ view.ignores s d root names) ∨
      isNested d root names = true)

/-- **Bringing an index up to a working directory** gives what is in it the content of the file at its path, and takes
    it out where there is none. -/
structure Updated : Prop where
  files : ∀ path content, view.index s' path = some (.file content) ↔
    view.index s path ≠ none ∧ ∃ names, path = pathOf names ∧ IsFile d root names content
  /-- What is no file stays only where there is a directory. -/
  others : ∀ path mode id, view.index s' path = some (.other mode id) → view.index s path ≠ none ∧
    ∃ names, path = pathOf names ∧ d.entry? (root ++ names) = some .directory

end View

/-! ## 3. Libraries -/

namespace Library

variable {σ : Type} (lib : Library σ) (view : View σ)

/-- What a repository has once it has for good. -/
structure KeepsObjects (s s' : σ) : Prop where
  opens : lib.openIndex s = .ok () → lib.openIndex s' = .ok ()
  commits : ∀ id c, lib.peelToCommit s id = .ok c → lib.peelToCommit s' id = .ok c
  trees : ∀ id items, view.tree? s id = some items → view.tree? s' id = some items

/-- Unless a commit is made its branch ends where it has ended. -/
structure Keeps (s s' : σ) : Prop extends lib.KeepsObjects view s s' where
  head : lib.head s' = lib.head s

/-- **What the functions of a library are documented to do**, as far as it counts for staging and committing. -/
structure Documented : Prop where
  isIndexEmpty : ∀ s, lib.isIndexEmpty s = true ↔ ∀ path, view.index s path = none
  /-- Files are added, -/
  addAll : ∀ d root s s', d.Sound → lib.addAll d root s = (.ok (), s') → view.Added d root s s'
  /-- and the index is brought up to them; neither touches anything else, also where it fails. -/
  updateAll : ∀ d root s s', d.Sound → lib.updateAll d root s = (.ok (), s') → view.Updated d root s s'
  keeps_addAll : ∀ d root s, lib.Keeps view s (lib.addAll d root s).2
  keeps_updateAll : ∀ d root s, lib.Keeps view s (lib.updateAll d root s).2
  /-- To write the index does not change it, -/
  writeIndex : ∀ s, lib.Keeps view s (lib.writeIndex s).2 ∧ view.index (lib.writeIndex s).2 = view.index s
  /-- nor does it to write a tree of it, -/
  writeTree : ∀ s, lib.Keeps view s (lib.writeTree s).2 ∧ view.index (lib.writeTree s).2 = view.index s
  /-- which then holds the same. -/
  tree : ∀ s id s', lib.writeTree s = (.ok id, s') → view.tree? s' id = some (view.index s)
  /-- What leads to a commit leads to the tree of the commit. -/
  peelToTree : ∀ s id c, lib.peelToCommit s id = .ok c → lib.peelToTree s id = .ok c.tree
  /-- A tree can be compared with the index; they differ in no path exactly if they hold the same. -/
  diff : ∀ s id items, view.tree? s id = some items → ∃ n, lib.diff s id = .ok n ∧ (n = 0 ↔ view.index s = items)
  /-- A commit that fails leaves the branch as it is, -/
  failed : ∀ author committer message tree parents s fault s',
    lib.commit author committer message tree parents s = (.error fault, s') →
      lib.Keeps view s s' ∧ view.index s' = view.index s
  /-- and behind one that succeeds the branch ends with the commit of this tree on top of these parents. -/
  committed : ∀ author committer message tree parents s id s',
    lib.commit author committer message tree parents s = (.ok id, s') →
      lib.KeepsObjects view s s' ∧ view.index s' = view.index s ∧ lib.head s' = .ok id ∧
        ∃ c, lib.peelToCommit s' id = .ok c ∧ lib.findCommit s' id = .ok c ∧ c.id = id ∧ c.tree = tree ∧
          c.parents = parents

/-- **The index of a repository can be opened, and its branch ends with a commit that is there**, or has none yet. -/
structure Intact (s : σ) : Prop where
  index : lib.openIndex s = .ok ()
  head : (∃ fault, lib.head s = .error fault ∧ (fault.kind = .unbornBranch ∨ fault.kind = .notFound)) ∨
    ∃ id c items, lib.head s = .ok id ∧ lib.peelToCommit s id = .ok c ∧ view.tree? s c.tree = some items

variable {lib view} {s s' s'' : σ}

theorem KeepsObjects.refl (s : σ) : lib.KeepsObjects view s s := ⟨id, fun _ _ => id, fun _ _ => id⟩

theorem KeepsObjects.trans (h : lib.KeepsObjects view s s') (h' : lib.KeepsObjects view s' s'') :
    lib.KeepsObjects view s s'' :=
  ⟨h'.opens ∘ h.opens, fun id c => h'.commits id c ∘ h.commits id c,
    fun id items => h'.trees id items ∘ h.trees id items⟩

theorem Keeps.refl (s : σ) : lib.Keeps view s s := ⟨.refl s, rfl⟩

theorem Keeps.trans (h : lib.Keeps view s s') (h' : lib.Keeps view s' s'') : lib.Keeps view s s'' :=
  ⟨h.toKeepsObjects.trans h'.toKeepsObjects, h'.head.trans h.head⟩

/-- A repository stays intact while its branch does not change. -/
theorem Intact.keeps (h : lib.Intact view s) (hk : lib.Keeps view s s') : lib.Intact view s' := by
  refine ⟨hk.opens h.index, ?_⟩
  rcases h.head with ⟨fault, hhead, hkind⟩ | ⟨id, c, items, hhead, hc, htree⟩
  · exact .inl ⟨fault, hk.head.trans hhead, hkind⟩
  · exact .inr ⟨id, c, items, hk.head.trans hhead, hk.commits id c hc, hk.trees _ items htree⟩

end Library

end RouteScaffold.Git
