import RouteScaffold.Git.InMemory
import RouteScaffold.Proofs.Git.Staging

/-!
# The library in memory does what is documented

The library that keeps repositories in memory does what is assumed of libraries (`Library.documented_inMemory`): its
indexes and trees are lists of files, whose items are told by `Tree.items`.

* `Tree.lookup_set`, `lookup_stage`: what is in an index behind files that are put into it;
* `file_mem_candidates`, `contentAt?_eq_some`: what is found in a working directory;
* `Memory.added`, `Memory.updated`: what adding and updating do.
-/

namespace RouteScaffold.Git

open Disk

/-! ## 1. Trees -/

/-- Bytes are compared byte by byte. -/
theorem beq_bytes {a b : ByteArray} : (a == b) = true ↔ a = b := by
  show (a.data == b.data) = true ↔ a = b
  rw [beq_iff_eq]
  exact ⟨fun h => ByteArray.ext h, fun h => by rw [h]⟩

instance instLawfulBEqBytes : LawfulBEq ByteArray where
  eq_of_beq := beq_bytes.mp
  rfl := beq_bytes.mpr rfl

namespace Tree

variable {tree : Tree} {path p : String} {content : ByteArray}

/-- The items of a tree in memory, which are all files. -/
def items (tree : Tree) : Items := fun path => (tree.lookup path).map .file

theorem items_eq_some {item : Item} : tree.items path = some item ↔ ∃ content, tree.lookup path = some content ∧
    item = .file content := by
  rw [items, Option.map_eq_some_iff]
  exact exists_congr fun content => and_congr_right fun _ => eq_comm

theorem items_ne_none : tree.items path ≠ none ↔ path ∈ tree.map Prod.fst := by
  rw [items, ne_eq, Option.map_eq_none_iff, List.lookup_eq_none_iff]
  simp only [List.mem_map, bne_iff_ne, ne_eq, not_forall, not_not]
  exact ⟨fun ⟨file, hm, he⟩ => ⟨file, hm, he.symm⟩, fun ⟨file, hm, he⟩ => ⟨file, hm, he.symm⟩⟩

/-- Trees with the same items find the same files. -/
theorem items_inj {tree tree' : Tree} : tree.items = tree'.items ↔ ∀ path, tree.lookup path = tree'.lookup path := by
  rw [funext_iff]
  refine forall_congr' fun path => ⟨fun h => ?_, fun h => by rw [items, items, h]⟩
  exact Option.map_injective (fun _ _ => Item.file.inj) h

theorem lookup_set : (set tree path content).lookup p = if p = path then some content else tree.lookup p := by
  induction tree with
  | nil =>
      rw [set, List.lookup_cons]
      by_cases hp : p = path
      · rw [if_pos hp, hp, beq_self_eq_true]
      · rw [if_neg hp, beq_false_of_ne hp]
  | cons file rest ih =>
      obtain ⟨q, c⟩ := file
      rw [set]
      by_cases hq : q = path
      · rw [if_pos hq, List.lookup_cons, List.lookup_cons, hq]
        by_cases hp : p = path
        · rw [if_pos hp, hp, beq_self_eq_true]
        · rw [if_neg hp, beq_false_of_ne hp]
      rw [if_neg hq]
      by_cases hlt : path < q
      · rw [if_pos hlt, List.lookup_cons]
        by_cases hp : p = path
        · rw [if_pos hp, hp, beq_self_eq_true]
        · rw [if_neg hp, beq_false_of_ne hp]
      · rw [if_neg hlt, List.lookup_cons, List.lookup_cons, ih]
        by_cases hp : p = path
        · rw [if_pos hp, if_pos hp, hp, beq_false_of_ne (Ne.symm hq)]
        · rw [if_neg hp, if_neg hp]

/-- A tree whose files are given other contents, or none. -/
theorem lookup_filterMap {f : String → Option ByteArray} :
    (tree.filterMap fun (p, _) => (f p).map (p, ·)).lookup path =
      if path ∈ tree.map Prod.fst then f path else none := by
  induction tree with
  | nil => rfl
  | cons file rest ih =>
      obtain ⟨q, c⟩ := file
      simp only [List.map_cons, List.mem_cons]
      cases hf : f q with
      | some content =>
          rw [List.filterMap_cons_some (b := (q, content)) (by dsimp only; rw [hf]; rfl), List.lookup_cons, ih]
          by_cases hq : path = q
          · rw [hq, hf, beq_self_eq_true, if_pos (Or.inl rfl)]
          · rw [beq_false_of_ne hq]
            simp only [hq, false_or]
      | none =>
          rw [List.filterMap_cons_none (by dsimp only; rw [hf]; rfl), ih]
          by_cases hq : path = q
          · rw [hq, hf, ite_self, ite_self]
          · simp only [hq, false_or]

end Tree

/-! ## 2. Candidates -/

section Stage

variable {index : Tree} {found : List Candidate}

/-- What is no candidate stays as it is. -/
theorem lookup_stage_of_notMem {path : String} (h : ∀ content, .file path content ∉ found) :
    (stage index found).2.lookup path = index.lookup path := by
  induction found generalizing index with
  | nil => rfl
  | cons first rest ih =>
      cases first with
      | file other content =>
          rw [stage, ih fun c hm => h c (List.mem_cons_of_mem _ hm), Tree.lookup_set, if_neg]
          rintro rfl
          exact h content List.mem_cons_self
      | nested other =>
          rfl

/-- **A candidate is staged** with its content, if all candidates can be. -/
theorem lookup_stage (h : (stage index found).1 = .ok ()) {path : String} {content : ByteArray}
    (hm : .file path content ∈ found) (hu : ∀ content', .file path content' ∈ found → content' = content) :
    (stage index found).2.lookup path = some content := by
  induction found generalizing index with
  | nil => cases hm
  | cons first rest ih =>
      cases first with
      | file other c =>
          rw [stage] at h ⊢
          by_cases hrest : ∃ content', .file path content' ∈ rest
          · obtain ⟨content', hm'⟩ := hrest
            obtain rfl := hu content' (List.mem_cons_of_mem _ hm')
            exact ih h hm' fun c' hc' => hu c' (List.mem_cons_of_mem _ hc')
          · rw [lookup_stage_of_notMem (not_exists.mp hrest), Tree.lookup_set]
            rcases List.mem_cons.mp hm with he | hm'
            · cases he
              rw [if_pos rfl]
            · exact absurd ⟨content, hm'⟩ hrest
      | nested other =>
          rw [stage] at h
          cases h

end Stage

section Directory

variable {d : Disk} {root : Place} {index : Tree}

theorem below?_eq_some {place : Place} {names : List String} :
    below? root place = some names ↔ names ≠ [] ∧ place = root ++ names := by
  unfold below?
  constructor
  · intro h
    split at h
    · rename_i hbelow
      rw [Bool.and_eq_true, decide_eq_true_eq] at hbelow
      obtain ⟨rest, rfl⟩ := List.isPrefixOf_iff_prefix.mp hbelow.1
      rw [List.drop_left, Option.some_inj] at h
      subst h
      refine ⟨?_, rfl⟩
      rintro rfl
      rw [List.append_nil] at hbelow
      exact absurd hbelow.2 (lt_irrefl _)
    · cases h
  · rintro ⟨hne, rfl⟩
    have hlength := List.length_pos_iff.mpr hne
    rw [if_pos, List.drop_left]
    rw [Bool.and_eq_true, decide_eq_true_eq, List.length_append]
    exact ⟨List.isPrefixOf_iff_prefix.mpr (List.prefix_append _ _), by omega⟩

/-- As there are no links in memory, other repositories are told by their markers. -/
theorem apart_iff {names : List String} : Apart index.items d root names ↔
    (isNested d root names && !reaches index names) = true := by
  have hreaches : (∀ path, (pathOf names ++ "/").toList <+: path.toList → index.items path = none) ↔
      reaches index names = false := by
    rw [reaches, Bool.eq_false_iff, ne_eq, List.any_eq_true, not_exists]
    constructor
    · rintro h ⟨path, content⟩ ⟨hm, hstarts⟩
      have hnone := h path (List.isPrefixOf_iff_prefix.mp hstarts)
      exact Tree.items_ne_none.mpr (List.mem_map_of_mem hm) hnone
    · intro h path hprefix
      by_contra hne
      obtain ⟨file, hm, rfl⟩ := List.mem_map.mp (Tree.items_ne_none.mp hne)
      exact h file ⟨hm, List.isPrefixOf_iff_prefix.mpr hprefix⟩
  rw [Apart, hreaches, Bool.and_eq_true, Bool.not_eq_true']
  refine and_congr_left fun _ => or_iff_left fun ⟨id, hlink⟩ => ?_
  obtain ⟨content, -, hitem⟩ := Tree.items_eq_some.mp hlink
  cases hitem

/-- On the way to a file no other repository is found exactly if the file is looked for. -/
theorem nestedOn?_eq_none {passed names : List String} : nestedOn? d root index passed names = none ↔
    ∀ front, front ≠ [] → front <+: names → ¬ Apart index.items d root (passed.reverse ++ front) := by
  induction names generalizing passed with
  | nil => exact ⟨fun _ front hne hprefix => absurd (List.prefix_nil.mp hprefix) hne, fun _ => rfl⟩
  | cons name rest ih =>
      rw [nestedOn?, List.reverse_cons]
      by_cases happart : Apart index.items d root (passed.reverse ++ [name])
      · rw [if_pos (apart_iff.mp happart)]
        refine ⟨fun h => (by cases h), fun h => absurd happart ?_⟩
        exact h [name] (List.cons_ne_nil _ _) (List.cons_prefix_cons.mpr ⟨rfl, List.nil_prefix⟩)
      · rw [if_neg fun h => happart (apart_iff.mpr h), ih, List.reverse_cons]
        constructor
        · intro h front hne hprefix
          obtain ⟨first, more, rfl⟩ := List.exists_cons_of_ne_nil hne
          obtain ⟨rfl, hmore⟩ := List.cons_prefix_cons.mp hprefix
          by_cases hnil : more = []
          · rw [hnil]
            exact happart
          · rw [List.append_cons]
            exact h more hnil hmore
        · intro h front hne hprefix
          rw [← List.append_cons]
          exact h (name :: front) (List.cons_ne_nil _ _) (List.cons_prefix_cons.mpr ⟨rfl, hprefix⟩)

theorem candidate?_eq_file {place : Place} {entry : Entry} {path : String} {content : ByteArray} :
    candidate? d root index place entry = some (.file path content) ↔ ∃ names, names ≠ [] ∧ place = root ++ names ∧
      entry = .file content ∧ path = pathOf names ∧ (∀ name ∈ names, spellsMarker name = false) ∧
        Entered index.items d root names ∧
          (index.items path ≠ none ∨ (rulesBelow d root).ignores names false = false) := by
  have hoff : ∀ names : List String,
      (names.any spellsMarker || (nestedOn? d root index [] names.dropLast).isSome) = false ↔
        (∀ name ∈ names, spellsMarker name = false) ∧ Entered index.items d root names := by
    intro names
    rw [Bool.or_eq_false_iff, Option.isSome_eq_false_iff, Option.isNone_iff_eq_none, nestedOn?_eq_none, Entered]
    simp only [List.any_eq_false, Bool.not_eq_true, List.reverse_nil, List.nil_append]
  have hseen : ∀ names : List String,
    (index.any (·.1 == pathOf names) || !(rulesBelow d root).ignores names false) = true ↔
      index.items (pathOf names) ≠ none ∨ (rulesBelow d root).ignores names false = false := by
    intro names
    rw [Tree.items_ne_none]
    simp only [Bool.or_eq_true, List.any_eq_true, beq_iff_eq, List.mem_map, Bool.not_eq_true']
  unfold candidate?
  constructor
  · intro h
    obtain ⟨names, hbelow, hfound⟩ := Option.bind_eq_some_iff.mp h
    obtain ⟨hne, rfl⟩ := below?_eq_some.mp hbelow
    cases entry with
    | directory =>
        dsimp only at hfound
        split at hfound
        · obtain ⟨nested, -, hnested⟩ := Option.bind_eq_some_iff.mp hfound
          split at hnested
          · cases hnested
          · cases hnested
        · cases hfound
    | file c =>
        dsimp only at hfound
        split at hfound
        · cases hfound
        · rename_i hin
          rw [Bool.not_eq_true, hoff] at hin
          split at hfound
          · rename_i hkept
            cases hfound
            exact ⟨names, hne, rfl, rfl, rfl, hin.1, hin.2, (hseen names).mp hkept⟩
          · cases hfound
  · rintro ⟨names, hne, rfl, rfl, rfl, hown, hentered, hkept⟩
    refine Option.bind_eq_some_iff.mpr ⟨names, below?_eq_some.mpr ⟨hne, rfl⟩, ?_⟩
    dsimp only
    rw [(hoff names).mpr ⟨hown, hentered⟩, if_neg Bool.false_ne_true, if_pos ((hseen names).mpr hkept)]

variable (hd : d.Sound)

include hd

/-- **What is found in a directory for staging** are its files that are not ignored or are in the index. -/
theorem file_mem_candidates {path : String} {content : ByteArray} : .file path content ∈ candidates d root index ↔
    ∃ names, path = pathOf names ∧ IsFile d root names content ∧ Entered index.items d root names ∧
      (index.items path ≠ none ∨ (rulesBelow d root).ignores names false = false) := by
  rw [candidates, List.mem_mergeSort, List.mem_filterMap]
  constructor
  · rintro ⟨⟨place, entry⟩, hm, hcandidate⟩
    obtain ⟨names, hne, rfl, rfl, hpath, hown, hentered, hseen⟩ := candidate?_eq_file.mp hcandidate
    exact ⟨names, hpath, ⟨hne, (hd.mem_entries_iff.mp hm).2, hown⟩, hentered, hseen⟩
  · rintro ⟨names, hpath, ⟨hne, hentry, hown⟩, hentered, hseen⟩
    refine ⟨(root ++ names, .file content), hd.mem_entries_iff.mpr ⟨?_, hentry⟩, ?_⟩
    · exact List.append_ne_nil_of_right_ne_nil _ hne
    · exact candidate?_eq_file.mpr ⟨names, hne, rfl, rfl, hpath, hown, hentered, hseen⟩

/-- Files with one path are one file. -/
theorem IsFile.unique {names names' : List String} {content content' : ByteArray} (h : IsFile d root names content)
    (h' : IsFile d root names' content') (hpath : pathOf names = pathOf names') : content = content' := by
  obtain rfl := pathOf_inj hd h.proper h'.proper (by rw [h.entry]; rfl) (by rw [h'.entry]; rfl) hpath
  have hentry := h.entry
  rw [h'.entry] at hentry
  cases hentry
  rfl

/-- **The content at a path is that of the file there.** -/
theorem contentAt?_eq_some {path : String} {content : ByteArray} : contentAt? d root path = some content ↔
    ∃ names, path = pathOf names ∧ IsFile d root names content := by
  have hsome : ∀ {content : ByteArray}, contentAt? d root path = some content →
      ∃ names, path = pathOf names ∧ IsFile d root names content := by
    intro content h
    obtain ⟨⟨place, entry⟩, hm, hfound⟩ := List.exists_of_findSome?_eq_some h
    dsimp only at hfound
    split at hfound
    · rename_i names c hbelow
      obtain ⟨hne, rfl⟩ := below?_eq_some.mp hbelow
      split at hfound
      · rename_i hfits
        cases hfound
        rw [Bool.and_eq_true, decide_eq_true_eq, Bool.not_eq_true', ← Bool.not_eq_true, List.any_eq_true,
          not_exists] at hfits
        refine ⟨names, hfits.1.symm, hne, (hd.mem_entries_iff.mp hm).2, fun name hname => ?_⟩
        exact Bool.eq_false_iff.mpr fun hmarker => hfits.2 name ⟨hname, hmarker⟩
      · cases hfound
    · cases hfound
  refine ⟨hsome, fun ⟨names, hpath, hfile⟩ => ?_⟩
  cases hcontent : contentAt? d root path with
  | some content' =>
      obtain ⟨names', hpath', hfile'⟩ := hsome hcontent
      rw [hfile.unique hd hfile' (hpath.symm.trans hpath')]
  | none =>
      have hm : (root ++ names, Entry.file content) ∈ d.entries :=
        hd.mem_entries_iff.mpr ⟨List.append_ne_nil_of_right_ne_nil _ hfile.proper, hfile.entry⟩
      have hfound := List.findSome?_eq_none_iff.mp hcontent _ hm
      have hown : names.any spellsMarker = false := by simpa [List.any_eq_false] using hfile.own
      dsimp only at hfound
      rw [below?_eq_some.mpr ⟨hfile.proper, rfl⟩] at hfound
      dsimp only at hfound
      rw [hpath, hown] at hfound
      simp at hfound

end Directory

/-! ## 3. Adding and updating -/

namespace Memory

/-- What there is to be seen in a repository in memory. -/
def view : View Memory where
  index s := s.index.items
  tree? s id := (s.tree? id).map Tree.items
  ignores _ d root names := (rulesBelow d root).ignores names false = true

variable {d : Disk} (hd : d.Sound) {root : Place} {s s' : Memory}

include hd

theorem added (h : addAll d root s = (.ok (), s')) : view.Added d root s s' := by
  have hstage : (stage (s.index.filter fun (path, _) => (candidates d root s.index).any (·.path == path))
      (candidates d root s.index)).1 = .ok () := (Prod.mk.inj h).1
  have hindex := congrArg Memory.index (Prod.mk.inj h).2
  have hunique : ∀ {path c c'}, .file path c ∈ candidates d root s.index → .file path c' ∈ candidates d root s.index →
      c' = c := by
    intro path c c' hm hm'
    obtain ⟨names, rfl, hfile, -⟩ := (file_mem_candidates hd).mp hm
    obtain ⟨names', hpath, hfile', -⟩ := (file_mem_candidates hd).mp hm'
    exact hfile'.unique hd hfile hpath.symm
  have hsame : s'.index.items = Tree.items (stage (s.index.filter fun (path, _) =>
      (candidates d root s.index).any (·.path == path)) (candidates d root s.index)).2 :=
        congrArg Tree.items hindex.symm
  constructor
  · intro names content hfile hentered hseen
    have hm : .file (pathOf names) content ∈ candidates d root s.index :=
      (file_mem_candidates hd).mpr ⟨names, rfl, hfile, hentered, hseen.imp_right Bool.eq_false_iff.mpr⟩
    show s'.index.items (pathOf names) = _
    rw [hsame, Tree.items, lookup_stage hstage hm fun c hc => hunique hm hc]
    rfl
  · intro path hpath
    have hpath : s'.index.items path ≠ none := hpath
    rw [hsame] at hpath
    by_cases hfile : ∃ content, .file path content ∈ candidates d root s.index
    · obtain ⟨content, hm⟩ := hfile
      obtain ⟨names, rfl, hfile, hentered, hseen⟩ := (file_mem_candidates hd).mp hm
      refine hseen.imp_right fun hseen => ⟨names, hfile.proper, rfl, .inl ⟨content, hfile, hentered, ?_⟩⟩
      exact Bool.eq_false_iff.mp hseen
    · rw [Tree.items, lookup_stage_of_notMem (not_exists.mp hfile), ← Tree.items, Tree.items_ne_none] at hpath
      obtain ⟨file, hm, rfl⟩ := List.mem_map.mp hpath
      exact .inl (Tree.items_ne_none.mpr (List.mem_map_of_mem (List.mem_filter.mp hm).1))

theorem updated (h : updateAll d root s = (.ok (), s')) : view.Updated d root s s' := by
  have hitems : ∀ path item, s'.index.items path = some item ↔
      s.index.items path ≠ none ∧ ∃ content, contentAt? d root path = some content ∧ item = .file content := by
    intro path item
    have hindex : s'.index = s.index.filterMap fun (path, _) => (contentAt? d root path).map (path, ·) :=
      (congrArg Memory.index (Prod.mk.inj h).2).symm
    rw [hindex, Tree.items_eq_some, Tree.lookup_filterMap, Tree.items_ne_none]
    split
    · rename_i hm
      simp only [hm, true_and]
    · rename_i hm
      simp [hm]
  constructor
  · intro path content
    show s'.index.items path = some (.file content) ↔ s.index.items path ≠ none ∧ _
    rw [hitems]
    refine and_congr_right fun _ => ⟨fun ⟨c, hc, he⟩ => ?_,
      fun hfile => ⟨content, (contentAt?_eq_some hd).mpr hfile, rfl⟩⟩
    cases he
    exact (contentAt?_eq_some hd).mp hc
  · intro path mode id hother
    obtain ⟨-, content, -, he⟩ := (hitems path _).mp hother
    cases he

end Memory

/-! ## 4. Objects -/

/-- Numbers are read back from the identifiers that are made of them. -/
theorem ObjectId.number_ofNumber (n : Nat) : (ofNumber n).number = n := by
  have hzeros : ∀ k, Nat.ofDigitChars 10 (List.replicate k '0') 0 = 0 := by
    intro k
    induction k with
    | zero => rfl
    | succ k ih =>
        rw [List.replicate_succ, Nat.ofDigitChars_cons]
        exact ih
  rw [number, ofNumber, Nat.ofDigitChars_append, hzeros, Nat.ofDigitChars_toDigits (by decide) (by decide)]

namespace Memory

variable {s : Memory}

/-- The next identifier is that of the object that is added next, -/
theorem object?_add (s : Memory) (o : Object) : (s.add o).object? s.nextId = some o := by
  rw [object?, nextId, ObjectId.number_ofNumber, add, List.getElem?_concat_length]

/-- and the objects that have been there stay. -/
theorem object?_of_add {id : ObjectId} {o : Object} (h : s.object? id = some o) (new : Object) :
    (s.add new).object? id = some o := by
  have hlt : id.number < s.objects.length := (List.getElem?_eq_some_iff.mp h).1
  rw [object?, add, List.getElem?_append_left hlt]
  exact h

theorem commit?_eq_some {id : ObjectId} {c : CommitObject} :
    s.commit? id = some c ↔ s.object? id = some (.commit c) := by
  unfold commit?
  cases s.object? id with
  | none => simp
  | some o =>
      cases o with
      | tree files => simp
      | commit c' => simp

theorem tree?_eq_some {id : ObjectId} {files : Tree} : s.tree? id = some files ↔ s.object? id = some (.tree files) := by
  unfold tree?
  cases s.object? id with
  | none => simp
  | some o =>
      cases o with
      | tree files' => simp
      | commit c => simp

theorem view_tree? {id : ObjectId} {items : Items} (h : view.tree? s id = some items) :
    ∃ files, s.tree? id = some files ∧ items = Tree.items files := by
  obtain ⟨files, hfiles, he⟩ := Option.map_eq_some_iff.mp h
  exact ⟨files, hfiles, he.symm⟩

theorem peelToCommit_eq_ok {id : ObjectId} {c : CommitObject} :
    Library.inMemory.peelToCommit s id = .ok c ↔ s.commit? id = some c := by
  show orMissing (s.commit? id) = .ok c ↔ s.commit? id = some c
  cases s.commit? id with
  | none => simp [orMissing]
  | some c' => simp [orMissing]

/-- To add an object keeps all others. -/
theorem keepsObjects_add (s : Memory) (o : Object) : Library.inMemory.KeepsObjects view s (s.add o) where
  opens _ := rfl
  commits id c h := by
    rw [peelToCommit_eq_ok, commit?_eq_some] at h ⊢
    exact object?_of_add h o
  trees id items h := by
    obtain ⟨files, hfiles, rfl⟩ := view_tree? h
    have hkept := tree?_eq_some.mpr (object?_of_add (tree?_eq_some.mp hfiles) o)
    show ((s.add o).tree? id).map Tree.items = _
    rw [hkept]
    rfl

/-- **An index differs from a tree in no path exactly if both hold the same.** -/
theorem differences_eq_nil {files : Tree} : s.differences files = [] ↔ s.index.items = files.items := by
  rw [differences, List.filter_eq_nil_iff, Tree.items_inj]
  constructor
  · intro h path
    by_cases hm : path ∈ (s.index ++ files).map Prod.fst
    · simpa using h path (List.mem_eraseDups.mpr hm)
    · -- A path that neither has.
      rw [List.map_append, List.mem_append, not_or] at hm
      rw [List.lookup_eq_none_iff.mpr fun file hf => ?_, List.lookup_eq_none_iff.mpr fun file hf => ?_]
      · exact bne_iff_ne.mpr fun he => hm.2 (he ▸ List.mem_map_of_mem hf)
      · exact bne_iff_ne.mpr fun he => hm.1 (he ▸ List.mem_map_of_mem hf)
  · intro h path _
    simp [h path]

end Memory

/-! ## 5. The library -/

open Memory

/-- **The library in memory does what libraries are documented to do.** -/
theorem Library.documented_inMemory : Library.inMemory.Documented Memory.view where
  isIndexEmpty s := by
    show s.index.isEmpty = true ↔ ∀ path, s.index.items path = none
    rw [List.isEmpty_iff]
    constructor
    · intro h path
      rw [h]
      rfl
    · intro h
      by_contra hne
      obtain ⟨file, rest, hindex⟩ := List.exists_cons_of_ne_nil hne
      refine Tree.items_ne_none.mpr ?_ (h file.1)
      rw [hindex]
      exact List.mem_cons_self
  addAll d root s s' hd h := added hd h
  updateAll d root s s' hd h := updated hd h
  keeps_addAll d root s := ⟨⟨id, fun _ _ => id, fun _ _ => id⟩, rfl⟩
  keeps_updateAll d root s := ⟨⟨id, fun _ _ => id, fun _ _ => id⟩, rfl⟩
  writeIndex s := ⟨.refl s, rfl⟩
  writeTree s := ⟨⟨keepsObjects_add s _, rfl⟩, rfl⟩
  tree s id s' h := by
    cases h
    show ((s.add (.tree s.index)).tree? s.nextId).map Tree.items = _
    rw [tree?_eq_some.mpr (object?_add s _)]
    rfl
  peelToTree s id c h := by
    show (orMissing (s.commit? id)).map CommitObject.tree = _
    rw [peelToCommit_eq_ok.mp h]
    rfl
  diff s id items h := by
    obtain ⟨files, hfiles, rfl⟩ := view_tree? h
    refine ⟨(s.differences files).length, ?_, ?_⟩
    · show (orMissing (s.tree? id)).map (fun files => (s.differences files).length) = _
      rw [hfiles]
      rfl
    · rw [List.length_eq_zero_iff, differences_eq_nil]
      rfl
  failed author committer message tree parents s fault s' h := by
    have h : Memory.commit author message tree parents s = (.error fault, s') := h
    unfold Memory.commit at h
    split at h
    · cases h
      exact ⟨.refl s, rfl⟩
    · split at h
      · cases h
        exact ⟨.refl s, rfl⟩
      · cases h
  committed author committer message tree parents s id s' h := by
    have h : Memory.commit author message tree parents s = (.ok id, s') := h
    unfold Memory.commit at h
    split at h
    · cases h
    · split at h
      · cases h
      · cases h
        have hkept := keepsObjects_add s (.commit ⟨s.nextId, some (summaryOf message), author, parents, tree⟩)
        have hcommit := peelToCommit_eq_ok.mpr (commit?_eq_some.mpr
          (object?_add s (.commit ⟨s.nextId, some (summaryOf message), author, parents, tree⟩)))
        exact ⟨⟨hkept.opens, hkept.commits, hkept.trees⟩, rfl, rfl, _, hcommit, hcommit, rfl, rfl, rfl⟩

/-- A repository that has just been made is intact. -/
theorem Memory.intact_fresh (bare : Bool) : Library.inMemory.Intact Memory.view (fresh bare) :=
  ⟨rfl, .inl ⟨_, rfl, .inl rfl⟩⟩

end RouteScaffold.Git
