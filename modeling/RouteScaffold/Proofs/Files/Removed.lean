import Mathlib.Data.List.Sort
import RouteScaffold.Proofs.Bytes
import RouteScaffold.Proofs.Files.Entries
import RouteScaffold.Proofs.Files.Folder

/-!
# Files that are removed one after the other

Of the files right in a directory those are removed whose names satisfy a predicate, in the order of their names. A file
whose path is too long, or that may not be removed, is refused, and ends it.

* `Disk.Lacks`: what it means that some files of a directory are gone and nothing else has changed;
* `Filing.removedUpTo_removeWhere`: which files `Filing.removeWhere` removes from a disk that is a tree;
* `Disk.removeWhere_folder`: it removes them as from the folder that the directory is;
* `Filing.removed_exactly`: so it is with disks, and with all that an operating system may list or refuse.
-/

namespace RouteScaffold

namespace Disk

variable {d d' : Disk}

/-! ## 1. Files that are gone -/

/-- Files of a directory are gone, and nothing else has changed. -/
structure Lacks (directory : Place) (gone : List String) (d d' : Disk) : Prop where
  stand : d'.toStandpoint = d.toStandpoint
  entries : ∀ x, d'.entry? x = if x ∈ gone.map (fun name => directory ++ [name]) then none else d.entry? x

theorem Lacks.refl (directory : Place) (d : Disk) : Lacks directory [] d d := ⟨rfl, fun _ => rfl⟩

/-- A file is gone ahead of others. -/
theorem Lacks.cons (hs : d.Sound) {directory : Place} {name : String} {content : ByteArray}
    (hf : d.entry? (directory ++ [name]) = some (.file content)) {gone : List String}
    (h : Lacks directory gone (d.erase (directory ++ [name])) d') : Lacks directory (name :: gone) d d' where
  stand := h.stand
  entries x := by
    rw [h.entries, hs.entry?_erase hf, List.map_cons]
    by_cases hx : x = directory ++ [name]
    · rw [if_pos hx, ite_self, if_pos (List.mem_cons.mpr (.inl hx))]
    · rw [if_neg hx]
      simp only [List.mem_cons, hx, false_or]

end Disk

open Disk

namespace Filing

variable {d : Disk} {directory : String}

/-! ## 2. Removing -/

/-- Removes files one after the other. -/
def removeAll (paths : List String) : Filing Unit := paths.forM fun path => change "remove" path (·.remove path)

theorem removeWhere_eq (directory : String) (p : String → Bool) : removeWhere directory p =
    fileNames directory >>= fun names => removeAll ((names.filter p).map (Path.join directory)) >>= fun _ =>
      pure ((names.filter p).map (Path.join directory)) := rfl

/-- The names of the files right in a directory are told, and sorted. -/
theorem run_fileNames (hs : d.Sound) (hd : d.Listable directory) : ∃ names,
    (fileNames directory).run d = (.ok names, d) ∧ names.Pairwise (· < ·) ∧
      ∀ name, name ∈ names ↔ ∃ content, d.entry? (target d.here directory ++ [name]) = some (.file content) := by
  have hlist := list_eq_ok_iff.mpr ⟨hd, rfl⟩
  have hrun : (fileNames directory).run d = (.ok _, d) := run_ask_bind_of_ok hlist
  obtain ⟨entries, hlist', hmem⟩ := fileNames_ok (congrArg Prod.fst hrun)
  cases hlist.symm.trans hlist'
  refine ⟨_, hrun, ?_, fun name => ?_⟩
  · exact pairwise_mergeSort ((hs.nodup_children (target d.here directory)).sublist (List.filter_sublist.map Prod.fst))
  · rw [hmem]
    exact exists_congr fun content => hs.mem_children_iff

/-- What is told of a file that is not removed. -/
def removalError (directory : String) : String × SystemError → FileError
  | (name, e) => .ofSystem "remove" (Path.join directory name) e

/-- Files are removed one after the other, up to the first that is refused. -/
theorem removedUpTo_removeAll (hs : d.Sound) (hd : d.isDirectory directory = true) {names : List String}
    (hnodup : names.Nodup)
    (hf : ∀ name ∈ names, ∃ content, d.entry? (target d.here directory ++ [name]) = some (.file content)) :
    ∃ result gone d', RemovedUpTo (d.guarded? directory) names result gone ∧
      (removeAll (names.map (Path.join directory))).run d =
        ((result.mapError (removalError directory)).map fun _ => (), d') ∧
      d'.Sound ∧ Lacks (target d.here directory) gone d d' := by
  induction names generalizing d with
  | nil => exact ⟨.ok [], [], d, .all (List.forall_mem_nil _), rfl, hs, .refl _ d⟩
  | cons name rest ih =>
      rw [List.nodup_cons] at hnodup
      rw [List.forall_mem_cons] at hf
      obtain ⟨⟨content, hfile⟩, hfiles⟩ := hf
      have hn : Path.IsEntry name := hs.isEntry (by rw [hfile]; rfl)
      have hremove := remove_join hd hn hfile
      have hrun := run_change "remove" (Path.join directory name) (·.remove (Path.join directory name)) d
      rw [hremove] at hrun
      cases hway : d.guarded? directory name with
      | some e =>
          rw [hway] at hrun
          exact ⟨.error (name, e), [], d, .refused hway rest, run_bind_of_error hrun, hs, .refl _ d⟩
      | none =>
          rw [hway] at hrun
          -- The others are still there.
          have hstill : ∀ other ∈ rest, ∃ content,
              entry? (d.erase (target d.here directory ++ [name])) (target d.here directory ++ [other]) =
                some (.file content) := by
            intro other ho
            rw [hs.entry?_erase hfile, if_neg fun he => ?_]
            · exact hfiles other ho
            · rw [(List.cons.inj (List.append_cancel_left he)).1] at ho
              exact hnodup.1 ho
          obtain ⟨result, gone, d', hremoved, hrest, hsound, hlacks⟩ :=
            ih (hs.erase hfile) (isDirectory_of_keeps (hs.keeps_erase hfile) rfl hd) hnodup.2 hstill
          refine ⟨_, _, d', hremoved.cons hway, ?_, hsound, .cons hs hfile hlacks⟩
          refine (run_bind_of_ok hrun).trans (hrest.trans ?_)
          cases result with
          | ok => rfl
          | error => rfl

/-- **Of the files of a directory those are removed whose names satisfy `p`**, in the order of their names and up to the
    first that is refused; nothing else is. -/
theorem removedUpTo_removeWhere (hs : d.Sound) (hd : d.Listable directory) (p : String → Bool) :
    ∃ names result gone d', names.Pairwise (· < ·) ∧
      (∀ name, name ∈ names ↔
        p name = true ∧ ∃ content, d.entry? (target d.here directory ++ [name]) = some (.file content)) ∧
      RemovedUpTo (fun name => d.refusal? (Path.join directory name)) names result gone ∧
      (removeWhere directory p).run d =
        ((result.map (List.map (Path.join directory))).mapError (removalError directory), d') ∧
      d'.Sound ∧ Lacks (target d.here directory) gone d d' := by
  obtain ⟨names, hnames, hsorted, hmem⟩ := run_fileNames hs hd
  have hwanted : ∀ name, name ∈ names.filter p ↔
      p name = true ∧ ∃ content, d.entry? (target d.here directory ++ [name]) = some (.file content) := by
    intro name
    rw [List.mem_filter, hmem, and_comm]
  obtain ⟨result, gone, d', hremoved, hrun, hsound, hlacks⟩ :=
    removedUpTo_removeAll hs hd.directory (hsorted.filter p).nodup fun name hn => ((hwanted name).mp hn).2
  refine ⟨names.filter p, result, gone, d', hsorted.filter p, hwanted,
    hremoved.congr fun name hn => ?_, ?_, hsound, hlacks⟩
  · obtain ⟨-, content, hfile⟩ := (hwanted name).mp hn
    exact refusal?_join hd.directory (hs.isEntry (by rw [hfile]; rfl)) hfile
  · rw [removeWhere_eq, run_bind_of_ok hnames]
    cases hremoved with
    | all => exact run_bind_of_ok hrun
    | ahead => exact run_bind_of_error hrun

/-- Where no directory can be listed nothing is removed. -/
theorem removeWhere_of_not_listable (hd : ¬ d.Listable directory) (p : String → Bool) :
    ∃ e, (removeWhere directory p).run d = (.error (.ofSystem "list" directory e), d) := by
  cases hlist : d.list directory with
  | ok entries => exact absurd (list_eq_ok_iff.mp hlist).1 hd
  | error e =>
      have hnames : (fileNames directory).run d = (.error (.ofSystem "list" directory e), d) :=
        run_ask_bind_of_error hlist
      exact ⟨e, by rw [removeWhere_eq, run_bind_of_error hnames]⟩

end Filing

/-! ## 3. Directories as folders -/

/-- What an entry is. -/
def Entry.kind : Entry → Kind
  | .directory => .directory
  | .file _ => .file

namespace Disk

/-- An entry of a directory: its name, what it is, and what stands there and below it. -/
def item (d : Disk) (place : Place) (name : String) (entry : Entry) : Item (Place → Option Entry) :=
  ⟨Text.bytes name, entry.kind, fun below => d.entry? (place ++ name :: below)⟩

/-- A directory of a disk as a folder. -/
def folder (d : Disk) (place : Place) : Folder (Place → Option Entry) :=
  (d.children place).map fun (name, entry) => d.item place name entry

/-- What a disk refuses while files of a directory are removed: a directory that is there is listed, if that is
    permitted. -/
def refusals (d : Disk) (directory : String) : Refusals where
  opening? := if d.refuses .look (target d.here directory) then some .denied else none
  reading? _ := none
  inspecting? _ := none
  removing? name := (ToolRun.text? name).bind fun name => d.refusal? (Path.join directory name)

variable {d d' : Disk} {place : Place}

theorem Listable.listed {directory : String} (h : d.Listable directory) (f : Folder (Place → Option Entry)) :
    Folder.Listed (d.refusals directory) f :=
  ⟨by rw [refusals, h.permitted]; rfl, fun _ _ => rfl, fun _ _ => rfl⟩

theorem removing?_refusals (d : Disk) (directory name : String) :
    (d.refusals directory).removing? (Text.bytes name) = d.refusal? (Path.join directory name) := by
  change (ToolRun.text? (Text.bytes name)).bind _ = _
  rw [Text.text?_bytes, Option.bind_some]

theorem Sound.mem_folder_iff (hs : d.Sound) {i : Item (Place → Option Entry)} :
    i ∈ d.folder place ↔ ∃ name entry, d.entry? (place ++ [name]) = some entry ∧ i = d.item place name entry := by
  rw [folder, List.mem_map]
  constructor
  · rintro ⟨⟨name, entry⟩, hm, rfl⟩
    exact ⟨name, entry, hs.mem_children_iff.mp hm, rfl⟩
  · rintro ⟨name, entry, he, rfl⟩
    exact ⟨(name, entry), hs.mem_children_iff.mpr he, rfl⟩

/-- The entries of a folder have different names. -/
theorem Sound.nodup_folder (hs : d.Sound) (place : Place) : ((d.folder place).map Item.name).Nodup := by
  have hnames : (d.folder place).map Item.name = ((d.children place).map Prod.fst).map Text.bytes := by
    rw [folder, List.map_map, List.map_map]
    rfl
  rw [hnames]
  exact (hs.nodup_children place).map Text.bytes_injective

theorem names_bytes {p : String → Bool} {name : String} : Folder.Names p (Text.bytes name) ↔ p name = true := by
  rw [Folder.Names, Text.text?_bytes]
  simp

/-- **A folder from which files are gone** is the folder without them. -/
theorem Lacks.mem_folder_iff {gone : List String} (h : Lacks place gone d d') (hs : d.Sound) (hs' : d'.Sound)
    {i : Item (Place → Option Entry)} :
    i ∈ d'.folder place ↔ i ∈ (d.folder place).without (gone.map Text.bytes) := by
  have hkept : ∀ {name : String}, name ∉ gone → ∀ below,
      d'.entry? (place ++ name :: below) = d.entry? (place ++ name :: below) := by
    intro name hname below
    rw [h.entries, if_neg]
    intro hm
    obtain ⟨other, ho, he⟩ := List.mem_map.mp hm
    rw [(List.cons.inj (List.append_cancel_left he)).1] at ho
    exact hname ho
  have hitem : ∀ {name : String} {entry : Entry}, name ∉ gone → d'.item place name entry = d.item place name entry := by
    intro name entry hname
    rw [item, item, funext (hkept hname)]
  rw [Folder.without, List.mem_filter, hs.mem_folder_iff, hs'.mem_folder_iff]
  constructor
  · rintro ⟨name, entry, he, rfl⟩
    have hname : name ∉ gone := by
      intro hm
      rw [h.entries, if_pos (List.mem_map_of_mem hm)] at he
      cases he
    rw [hkept hname] at he
    refine ⟨⟨name, entry, he, hitem hname⟩, decide_eq_true fun hm => hname ?_⟩
    obtain ⟨other, ho, hsame⟩ := List.mem_map.mp hm
    rwa [← Text.bytes_injective hsame]
  · rintro ⟨⟨name, entry, he, rfl⟩, hname⟩
    have hname : name ∉ gone := fun hm => of_decide_eq_true hname (List.mem_map_of_mem hm)
    exact ⟨name, entry, by rw [hkept hname, he], (hitem hname).symm⟩

/-- **A disk removes files as from the folder that the directory is.** -/
theorem removeWhere_folder (hs : d.Sound) {directory : String} (hd : d.Listable directory) {p : String → Bool}
    {names gone : List String} {result : Except (String × SystemError) (List String)} (hsorted : names.Pairwise (· < ·))
    (hmem : ∀ name, name ∈ names ↔
      p name = true ∧ ∃ content, d.entry? (target d.here directory ++ [name]) = some (.file content))
    (h : RemovedUpTo (fun name => d.refusal? (Path.join directory name)) names result gone) :
    (d.folder (target d.here directory)).removeWhere (d.refusals directory) p =
      ((result.map (List.map Text.bytes)).mapError (fun (name, cause) => .ofRemoval (Text.bytes name, cause)),
        (d.folder (target d.here directory)).without (gone.map Text.bytes)) := by
  obtain ⟨wanted, result', gone', hsorted', hmem', hremoved, hwhere⟩ :=
    Folder.removedUpTo_removeWhere (hs.nodup_folder _) (hd.listed _) p
  have hwanted : wanted = names.map Text.bytes := by
    refine hsorted'.eq_of_mem_iff (List.pairwise_map.mpr (hsorted.imp Text.bytes_lt)) fun raw => ?_
    rw [hmem', List.mem_map]
    constructor
    · rintro ⟨hp, i, hi, rfl, hkind⟩
      obtain ⟨name, entry, he, rfl⟩ := hs.mem_folder_iff.mp hi
      refine ⟨name, (hmem name).mpr ⟨names_bytes.mp hp, ?_⟩, rfl⟩
      cases entry with
      | directory => cases hkind
      | file content => exact ⟨content, he⟩
    · rintro ⟨name, hn, rfl⟩
      obtain ⟨hp, content, he⟩ := (hmem name).mp hn
      exact ⟨names_bytes.mpr hp, _, hs.mem_folder_iff.mpr ⟨name, _, he, rfl⟩, rfl, rfl⟩
  rw [hwanted] at hremoved
  have hsame : RemovedUpTo (d.refusals directory).removing? (names.map Text.bytes)
      ((result.map (List.map Text.bytes)).mapError (Prod.map Text.bytes id)) (gone.map Text.bytes) :=
    h.map fun name _ => removing?_refusals d directory name
  obtain ⟨rfl, rfl⟩ := hremoved.unique hsame
  rw [hwhere]
  cases result with
  | ok => rfl
  | error => rfl

end Disk

/-! ## 4. Exactly the files that are wanted -/

/-- **Of the entries of a directory exactly the files are removed whose names are texts that satisfy `p`**, in the order
    of their names and up to the first that is refused. So it is with every folder, whatever its names are and whatever
    is refused; and so a disk does it with a directory, outside of which nothing changes either. -/
theorem Filing.removed_exactly (p : String → Bool) :
    (∀ {α : Type} (f : Folder α) (r : Refusals), (f.map Item.name).Nodup →
      (¬ Folder.Listed r f → ∃ refusal, f.removeWhere r p = (.error refusal, f)) ∧
      (Folder.Listed r f → ∃ wanted result gone, wanted.Pairwise (· < ·) ∧
        (∀ name, name ∈ wanted ↔ Folder.Names p name ∧ ∃ item ∈ f, item.name = name ∧ item.kind = .file) ∧
        RemovedUpTo r.removing? wanted result gone ∧
        f.removeWhere r p = (result.mapError .ofRemoval, f.without gone))) ∧
    ∀ (d : Disk) (directory : String), d.Sound →
      (¬ d.Listable directory →
        ∃ e, (removeWhere directory p).run d = (.error (.ofSystem "list" directory e), d)) ∧
      (d.Listable directory → ∃ names result gone d', names.Pairwise (· < ·) ∧
        (∀ name, name ∈ names ↔
          p name = true ∧ ∃ content, d.entry? (target d.here directory ++ [name]) = some (.file content)) ∧
        RemovedUpTo (fun name => d.refusal? (Path.join directory name)) names result gone ∧
        (removeWhere directory p).run d =
          ((result.map (List.map (Path.join directory))).mapError (removalError directory), d') ∧
        Lacks (target d.here directory) gone d d' ∧
        (d.folder (target d.here directory)).removeWhere (d.refusals directory) p =
          ((result.map (List.map Text.bytes)).mapError (fun (name, cause) => .ofRemoval (Text.bytes name, cause)),
            (d.folder (target d.here directory)).without (gone.map Text.bytes)) ∧
        ∀ i, i ∈ d'.folder (target d.here directory) ↔
          i ∈ (d.folder (target d.here directory)).without (gone.map Text.bytes)) := by
  refine ⟨fun f r hf => ⟨fun hr => Folder.removeWhere_of_not_listed hr p,
    fun hr => Folder.removedUpTo_removeWhere hf hr p⟩,
    fun d directory hs => ⟨fun hd => removeWhere_of_not_listable hd p, fun hd => ?_⟩⟩
  obtain ⟨names, result, gone, d', hsorted, hmem, hremoved, hrun, hs', hlacks⟩ := removedUpTo_removeWhere hs hd p
  exact ⟨names, result, gone, d', hsorted, hmem, hremoved, hrun, hlacks, removeWhere_folder hs hd hsorted hmem hremoved,
    fun i => hlacks.mem_folder_iff hs hs'⟩

/-- The name of a part of the app that a tool makes. -/
def Name.isOfApp (name : String) : Bool := "App.".toList.isPrefixOf name.toList

/-- Parts of the app, of which one is refused, and entries whose names are like theirs. -/
def Folder.app : Folder Nat :=
  [⟨Text.bytes "App.js", .file, 0⟩, ⟨0xff :: Text.bytes "App.", .file, 1⟩, ⟨Text.bytes "App.d", .directory, 2⟩,
    ⟨Text.bytes "App.css", .file, 3⟩]

/-- One of the parts may not be removed. -/
def Refusals.app : Refusals where
  opening? := none
  reading? _ := none
  inspecting? _ := none
  removing? name := if name = Text.bytes "App.js" then some (.os 1) else none

/-- Parts of the app, and a directory whose name is like theirs. -/
def Disk.app : Disk where
  entries := [(["src"], .directory), (["src", "App.js"], .file .empty), (["src", "App.d"], .directory),
    (["src", "App.d", "App.css"], .file .empty), (["src", "App.css"], .file .empty)]
  here := []

theorem Disk.sound_app : app.Sound := .of_places (by decide) (by decide) (by decide) rfl

/-- From the folder the one part goes and the other stays, unless the folder is closed; from the disk both go, but from
    no directory that is not there. -/
theorem Filing.removed_exactly_app :
    ((Folder.app.map Item.name).Nodup ∧ Folder.Listed .app Folder.app ∧
      Folder.app.removeWhere .app Name.isOfApp =
        (.error (.ofRemoval (Text.bytes "App.js", .os 1)), Folder.app.without [Text.bytes "App.css"])) ∧
    (¬ Folder.Listed { Refusals.app with opening? := some (.os 13) } Folder.app ∧ ∃ refusal,
      Folder.app.removeWhere { Refusals.app with opening? := some (.os 13) } Name.isOfApp =
        (.error refusal, Folder.app)) ∧
    Disk.app.Sound ∧
    (Disk.app.Listable "src" ∧ ∃ d',
      (removeWhere "src" Name.isOfApp).run .app = (.ok ["src/App.css", "src/App.js"], d') ∧
      Lacks ["src"] ["App.css", "App.js"] .app d') ∧
    ¬ Disk.app.Listable "lib" ∧ ∃ e,
      (removeWhere "lib" Name.isOfApp).run .app = (.error (.ofSystem "list" "lib" e), .app) := by
  have hnodup : (Folder.app.map Item.name).Nodup := by decide
  have hlisted : Folder.Listed .app Folder.app := ⟨rfl, fun _ _ => rfl, fun _ _ => rfl⟩
  have hclosed : ¬ Folder.Listed { Refusals.app with opening? := some (.os 13) } Folder.app :=
    fun h => by cases h.opened
  have hdirectory : Disk.app.Listable "src" := ⟨by decide, rfl⟩
  have hnone : ¬ Disk.app.Listable "lib" := fun h => absurd h.directory (by decide)
  refine ⟨⟨hnodup, hlisted, ?_⟩, ⟨hclosed, ((removed_exactly _).1 _ _ hnodup).1 hclosed⟩, sound_app, ⟨hdirectory, ?_⟩,
    hnone, ((removed_exactly _).2 .app "lib" sound_app).1 hnone⟩
  · obtain ⟨wanted, result, gone, hsorted, hmem, hremoved, hrun⟩ :=
      ((removed_exactly Name.isOfApp).1 Folder.app .app hnodup).2 hlisted
    have hwanted : wanted = [Text.bytes "App.css", Text.bytes "App.js"] := by
      have happ : ∀ item ∈ Folder.app, Folder.Names Name.isOfApp item.name → item.kind = .file →
          item.name ∈ [Text.bytes "App.css", Text.bytes "App.js"] := by decide
      have hall : ∀ name ∈ [Text.bytes "App.css", Text.bytes "App.js"], Folder.Names Name.isOfApp name ∧
          ∃ item ∈ Folder.app, item.name = name ∧ item.kind = .file := by decide
      refine hsorted.eq_of_mem_iff (by decide) fun name => (hmem name).trans ⟨?_, hall name⟩
      rintro ⟨hp, item, hi, rfl, hkind⟩
      exact happ item hi hp hkind
    have happ : RemovedUpTo Refusals.app.removing? wanted (.error (Text.bytes "App.js", .os 1))
        [Text.bytes "App.css"] :=
      .ahead hwanted (by decide) rfl
    obtain ⟨rfl, rfl⟩ := hremoved.unique happ
    exact hrun
  · obtain ⟨names, result, gone, d', hsorted, hmem, hremoved, hrun, hlacks, -⟩ :=
      ((removed_exactly Name.isOfApp).2 .app "src" sound_app).2 hdirectory
    have hnames : names = ["App.css", "App.js"] := by
      have happ : ∀ entry ∈ Disk.app.entries, ∀ name ∈ entry.1.getLast?, Name.isOfApp name = true →
          entry.2.kind = .file → entry.1 = ["src", name] → name ∈ ["App.css", "App.js"] := by decide
      refine hsorted.eq_of_mem_iff (by decide) fun name => (hmem name).trans ⟨?_, ?_⟩
      · rintro ⟨hp, content, hfile⟩
        exact happ _ (mem_entries_of_eq hfile (List.cons_ne_nil _ _)) name rfl hp rfl rfl
      · simp only [List.mem_cons, List.not_mem_nil, or_false]
        rintro (rfl | rfl)
        · exact ⟨by decide, .empty, rfl⟩
        · exact ⟨by decide, .empty, rfl⟩
    have hrefused : ∀ name ∈ ["App.css", "App.js"], Disk.app.refusal? (Path.join "src" name) = none := by
      decide +kernel
    obtain ⟨rfl, rfl⟩ := hremoved.unique (.all (by rw [hnames]; exact hrefused))
    rw [hnames] at hrun hlacks
    have hpaths : ["App.css", "App.js"].map (Path.join "src") = ["src/App.css", "src/App.js"] := by
      decide +kernel
    refine ⟨d', hrun.trans ?_, hlacks⟩
    rw [← hpaths]
    rfl

end RouteScaffold
