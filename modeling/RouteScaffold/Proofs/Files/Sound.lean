import Mathlib.Data.List.Nodup
import RouteScaffold.Proofs.Files.Tracked

/-!
# Disks that are trees

On a disk as an operating system keeps it every place has one entry, every entry stands in a directory under a name that
a path can spell, and the working directory is there (`Disk.Sound`). Every file operation keeps a disk so, also when it
fails (`Filing.KeepsSound`).

* `Disk.Sound.put`, `Disk.Sound.erase`: what may be put and what may be removed;
* `Disk.Sound.entry?_erase`: nothing is removed with a file;
* `Disk.Sound.mem_children_iff`: the entries of a directory are what stands right below it.
-/

namespace RouteScaffold

/-- A name under which an entry can stand: a path can spell it, and it leads to no other place. -/
structure Path.IsEntry (name : String) : Prop where
  slash : '/' ∉ name.toList
  step : isStep name = true
  up : name ≠ ".."

instance (name : String) : Decidable (Path.IsEntry name) :=
  decidable_of_iff ('/' ∉ name.toList ∧ Path.isStep name = true ∧ name ≠ "..")
    ⟨fun h => ⟨h.1, h.2.1, h.2.2⟩, fun h => ⟨h.slash, h.step, h.up⟩⟩

instance (entry : Option Entry) : Decidable (entry = some .directory) :=
  match entry with
  | none => isFalse nofun
  | some .directory => isTrue rfl
  | some (.file _) => isFalse nofun

namespace Disk

/-- A disk is a tree of directories and files. -/
structure Sound (d : Disk) : Prop where
  distinct : (d.entries.map Prod.fst).Nodup
  named : ∀ place ∈ d.entries.map Prod.fst, ∀ name ∈ place, Path.IsEntry name
  top : ∀ place ∈ d.entries.map Prod.fst, place ≠ []
  inside : ∀ place name, (d.entry? (place ++ [name])).isSome → d.entry? place = some .directory
  here : d.entry? d.here = some .directory

variable {d : Disk}

theorem isSome_entry?_iff {place : Place} (hne : place ≠ []) :
    (d.entry? place).isSome ↔ place ∈ d.entries.map Prod.fst := by
  constructor
  · intro h
    obtain ⟨entry, he⟩ := Option.isSome_iff_exists.mp h
    exact List.mem_map_of_mem (mem_entries_of_eq he hne)
  · intro h
    obtain ⟨⟨_, entry⟩, hm, rfl⟩ := List.mem_map.mp h
    exact isSome_of_mem hm

/-- Whether a disk is a tree can be seen place by place. -/
theorem Sound.of_places (hd : (d.entries.map Prod.fst).Nodup)
    (hn : ∀ place ∈ d.entries.map Prod.fst, ∀ name ∈ place, Path.IsEntry name)
    (hp : ∀ place ∈ d.entries.map Prod.fst, place ≠ [] ∧ d.entry? place.dropLast = some .directory)
    (hh : d.entry? d.here = some .directory) : d.Sound where
  distinct := hd
  named := hn
  top place hm := (hp place hm).1
  inside place name hs := by
    have hne : place ++ [name] ≠ [] := List.append_ne_nil_of_right_ne_nil _ (List.cons_ne_nil _ _)
    have hparent := (hp _ ((isSome_entry?_iff hne).mp hs)).2
    rwa [List.dropLast_concat] at hparent
  here := hh

/-! ## 1. Putting -/

theorem keys_setAt (place : Place) (entry : Entry) (entries : List (Place × Entry)) :
    (put.setAt place entry entries).map Prod.fst =
      if place ∈ entries.map Prod.fst then entries.map Prod.fst else entries.map Prod.fst ++ [place] := by
  induction entries with
  | nil => rfl
  | cons head rest ih =>
      obtain ⟨p, e⟩ := head
      rw [put.setAt]
      by_cases hp : p = place
      · rw [if_pos hp, if_pos (by rw [hp]; exact List.mem_cons_self)]
        rfl
      · rw [if_neg hp, List.map_cons, ih, List.map_cons]
        by_cases hm : place ∈ rest.map Prod.fst
        · rw [if_pos hm, if_pos (List.mem_cons_of_mem _ hm)]
        · rw [if_neg hm, if_neg (by rw [List.mem_cons, not_or]; exact ⟨Ne.symm hp, hm⟩), List.cons_append]

theorem mem_keys_put {place other : Place} {entry : Entry} (h : other ∈ (d.put place entry).entries.map Prod.fst) :
    other = place ∨ other ∈ d.entries.map Prod.fst := by
  rw [put, keys_setAt] at h
  split at h
  · exact .inr h
  · exact (List.mem_append.mp h).symm.imp_left List.mem_singleton.mp

/-- **An entry can be put into a directory**, but no file in place of a directory. -/
theorem Sound.put (h : d.Sound) {parent : Place} {name : String} (hp : d.entry? parent = some .directory)
    (hn : Path.IsEntry name) {entry : Entry}
    (he : entry = .directory ∨ d.entry? (parent ++ [name]) ≠ some .directory) :
    (d.put (parent ++ [name]) entry).Sound := by
  have hne : parent ++ [name] ≠ [] := List.append_ne_nil_of_right_ne_nil _ (List.cons_ne_nil _ _)
  -- A directory stays one.
  have hkeeps : ∀ x, d.entry? x = some .directory → entry? (d.put (parent ++ [name]) entry) x = some .directory := by
    intro x hx
    rw [entry?_put d hne]
    by_cases hplace : x = parent ++ [name]
    · rw [if_pos hplace]
      rw [hplace] at hx
      rw [he.resolve_right fun hnot => hnot hx]
    · rw [if_neg hplace, hx]
  refine ⟨?distinct, fun place hm => ?named, fun place hm => ?top, fun place other hsome => ?inside, hkeeps _ h.here⟩
  case distinct =>
    rw [Disk.put, keys_setAt]
    split
    · exact h.distinct
    · rw [← List.concat_eq_append]
      exact h.distinct.concat ‹_›
  case named =>
    rcases mem_keys_put hm with rfl | hm
    · refine List.forall_mem_append.mpr ⟨fun other hother => ?_, List.forall_mem_singleton.mpr hn⟩
      refine h.named parent ((isSome_entry?_iff (List.ne_nil_of_mem hother)).mp ?_) other hother
      rw [hp]
      rfl
    · exact h.named place hm
  case top =>
    rcases mem_keys_put hm with rfl | hm
    · exact hne
    · exact h.top place hm
  case inside =>
    rw [entry?_put d hne] at hsome
    by_cases hplace : place ++ [other] = parent ++ [name]
    · obtain ⟨rfl, -⟩ := List.append_inj' hplace rfl
      exact hkeeps _ hp
    · rw [if_neg hplace] at hsome
      exact hkeeps _ (h.inside place other hsome)

/-! ## 2. Removing -/

/-- All on the way to an entry are directories. -/
theorem Sound.way (h : d.Sound) {above : Place} {names : List String} (hn : names ≠ [])
    (hs : (d.entry? (above ++ names)).isSome) : d.entry? above = some .directory := by
  induction names using List.reverseRecOn with
  | nil => exact absurd rfl hn
  | append_singleton names name ih =>
      rw [← List.append_assoc] at hs
      have hparent := h.inside _ _ hs
      by_cases hempty : names = []
      · rw [hempty, List.append_nil] at hparent
        exact hparent
      · exact ih hempty (by rw [hparent]; rfl)

theorem lookup_filter {p : Place → Bool} (entries : List (Place × Entry)) (x : Place) :
    (entries.filter fun e => p e.1).lookup x = if p x then entries.lookup x else none := by
  induction entries with
  | nil =>
      split
      · rfl
      · rfl
  | cons head rest ih =>
      obtain ⟨place, entry⟩ := head
      rw [List.filter_cons, List.lookup_cons]
      dsimp only
      by_cases hx : x = place
      · rw [← hx, beq_self_eq_true]
        by_cases hp : p x = true
        · rw [if_pos hp, if_pos hp, List.lookup_cons, beq_self_eq_true]
        · rw [if_neg hp, if_neg hp, ih, if_neg hp]
      · rw [beq_false_of_ne hx]
        by_cases hp : p place = true
        · rw [if_pos hp, List.lookup_cons, beq_false_of_ne hx, ih]
        · rw [if_neg hp, ih]

section Erase

variable (h : d.Sound) {place : Place} {content : ByteArray} (hf : d.entry? place = some (.file content))

include h hf

/-- **Nothing is removed with a file.** -/
theorem Sound.entry?_erase (x : Place) : entry? (d.erase place) x = if x = place then none else d.entry? x := by
  have hne : place ≠ [] := by
    rintro rfl
    cases hf
  by_cases htop : x = []
  · rw [htop, if_neg (Ne.symm hne)]
    rfl
  have herase : entry? (d.erase place) x = if !place.isPrefixOf x then d.entries.lookup x else none := by
    rw [entry?_eq_lookup htop]
    exact lookup_filter (p := fun y => !place.isPrefixOf y) d.entries x
  rw [herase, ← entry?_eq_lookup htop]
  by_cases hx : x = place
  · rw [if_pos hx, hx, List.isPrefixOf_iff_prefix.mpr List.prefix_rfl]
    rfl
  rw [if_neg hx]
  by_cases hfront : place.isPrefixOf x = true
  · -- Below a file there is nothing.
    obtain ⟨names, rfl⟩ := List.isPrefixOf_iff_prefix.mp hfront
    rw [hfront]
    refine (Option.not_isSome_iff_eq_none.mp fun hs => ?_).symm
    have hnames : names ≠ [] := fun hn => hx (by rw [hn, List.append_nil])
    rw [h.way hnames hs] at hf
    cases hf
  · rw [Bool.eq_false_iff.mpr hfront]
    rfl

theorem Sound.keeps_erase : KeepsDirectories d (d.erase place) := by
  intro x hx
  rw [h.entry?_erase hf, if_neg fun he => by rw [he, hf] at hx; cases hx]
  exact hx

/-- **A file can be removed.** -/
theorem Sound.erase : (d.erase place).Sound := by
  have hsub : ((d.erase place).entries.map Prod.fst).Sublist (d.entries.map Prod.fst) := List.filter_sublist.map _
  have hkeeps := h.keeps_erase hf
  refine ⟨h.distinct.sublist hsub, fun x hx => h.named x (hsub.subset hx), fun x hx => h.top x (hsub.subset hx),
    fun x name hs => ?_, hkeeps _ h.here⟩
  rw [h.entry?_erase hf] at hs
  split at hs
  · cases hs
  · exact hkeeps x (h.inside x name hs)

end Erase

/-! ## 3. Ends of paths -/

/-- What is known of the end of a path on a disk that is a tree: nothing stands there only in a directory, under a name
    that an entry can have. -/
def Ends (d : Disk) : Found → Prop
  | .directory place => d.entry? place = some .directory
  | .file place content => d.entry? place = some (.file content) ∧
    ∃ parent name, place = parent ++ [name] ∧ d.entry? parent = some .directory ∧ Path.IsEntry name
  | .absent place => d.entry? place = none ∧
    ∃ parent name, place = parent ++ [name] ∧ d.entry? parent = some .directory ∧ Path.IsEntry name

/-- What is no directory stands in one. -/
theorem Ends.inDirectory {place : Place} (h : d.Ends (d.foundAt place)) (hfree : d.entry? place ≠ some .directory) :
    ∃ parent name, place = parent ++ [name] ∧ d.entry? parent = some .directory ∧ Path.IsEntry name := by
  unfold foundAt at h
  split at h
  · exact absurd ‹_› hfree
  · exact h.2
  · exact h.2

theorem Sound.dropLast (h : d.Sound) {place : Place} (hp : d.entry? place = some .directory) :
    d.entry? place.dropLast = some .directory := by
  rcases List.eq_nil_or_concat place with rfl | ⟨parent, name, rfl⟩
  · rfl
  · rw [List.concat_eq_append, List.dropLast_concat]
    rw [List.concat_eq_append] at hp
    exact h.inside parent name (by rw [hp]; rfl)

theorem Sound.ends_follows (h : d.Sound) {place : Place} {pieces : List String} {found : Found}
    (hf : d.Follows place pieces found) (hp : d.entry? place = some .directory)
    (hs : ∀ piece ∈ pieces, '/' ∉ piece.toList) : d.Ends found := by
  induction hf with
  | done place => exact hp
  | stay hstay more ih => exact ih hp (List.forall_mem_cons.mp hs).2
  | up more ih => exact ih (h.dropLast hp) (List.forall_mem_cons.mp hs).2
  | enter hpiece hentry more ih => exact ih hentry (List.forall_mem_cons.mp hs).2
  | file hpiece hentry =>
      exact ⟨hentry, _, _, rfl, hp, hs _ List.mem_cons_self, Path.isStep_iff.mpr hpiece.step, hpiece.up⟩
  | absent hpiece hentry =>
      exact ⟨hentry, _, _, rfl, hp, hs _ List.mem_cons_self, Path.isStep_iff.mpr hpiece.step, hpiece.up⟩

theorem slash_not_mem_piecesOf {path : String} : ∀ piece ∈ piecesOf path, '/' ∉ piece.toList := by
  intro piece hp
  have hm := (List.dropWhile_suffix _).subset (List.mem_reverse.mp hp)
  obtain ⟨chars, hchars, rfl⟩ := List.mem_map.mp (List.mem_reverse.mp hm)
  rw [String.toList_ofList]
  exact Path.slash_not_mem_pieces chars hchars

/-- **What is known of the end of a path**, on a disk that is a tree. -/
theorem Sound.ends_find (h : d.Sound) {path : String} {e : Ending} (hf : d.find path = .ok e) : d.Ends e.found := by
  refine h.ends_follows (find_eq_ok_iff.mp hf).2.1 ?_ slash_not_mem_piecesOf
  unfold origin
  split
  · rfl
  · exact h.here

/-- **The entries of a disk are what stands on it.** -/
theorem Sound.mem_entries_iff (h : d.Sound) {place : Place} {entry : Entry} :
    (place, entry) ∈ d.entries ↔ place ≠ [] ∧ d.entry? place = some entry := by
  constructor
  · intro hm
    have hne := h.top place (List.mem_map_of_mem hm)
    obtain ⟨entry', he⟩ := Option.isSome_iff_exists.mp (isSome_of_mem hm)
    rw [he, List.inj_on_of_nodup_map h.distinct hm (mem_entries_of_eq he hne) rfl |> Prod.mk.inj |>.2]
    exact ⟨hne, rfl⟩
  · exact fun ⟨hne, he⟩ => mem_entries_of_eq he hne

/-- **The entries of a directory are what stands right below it.** -/
theorem Sound.mem_children_iff (h : d.Sound) {place : Place} {name : String} {entry : Entry} :
    (name, entry) ∈ d.children place ↔ d.entry? (place ++ [name]) = some entry := by
  rw [children, List.mem_filterMap]
  constructor
  · rintro ⟨⟨other, entry'⟩, hm, heq⟩
    obtain ⟨name', hname, heq⟩ := Option.map_eq_some_iff.mp heq
    cases heq
    rw [← eq_append_of_childName? hname]
    exact (h.mem_entries_iff.mp hm).2
  · intro he
    refine ⟨_, h.mem_entries_iff.mpr ⟨List.append_ne_nil_of_right_ne_nil _ (List.cons_ne_nil _ _), he⟩, ?_⟩
    dsimp only
    rw [childName?_append]
    rfl

end Disk

/-! ## 4. File operations -/

open Disk

namespace Filing

variable {α β : Type}

/-- A file operation that keeps a disk a tree, also when it fails. -/
def KeepsSound (f : Filing α) : Prop := ∀ d : Disk, d.Sound → (f.run d).2.Sound

namespace KeepsSound

theorem pure (value : α) : KeepsSound (pure value : Filing α) := fun _ h => h

theorem ask (action path : String) (f : Disk → Except SystemError α) : KeepsSound (Filing.ask action path f) := by
  intro d h
  rw [run_ask]
  exact h

theorem change {action path : String} {f : Disk → Except SystemError Disk}
    (hf : ∀ d d' : Disk, d.Sound → f d = .ok d' → d'.Sound) : KeepsSound (Filing.change action path f) := by
  intro d h
  rw [run_change]
  cases hd : f d with
  | error e => exact h
  | ok d' => exact hf d d' h hd

theorem bind {f : Filing α} {g : α → Filing β} (hf : KeepsSound f) (hg : ∀ value, KeepsSound (g value)) :
    KeepsSound (f >>= g) := by
  intro d h
  rcases hrun : f.run d with ⟨e | value, d'⟩
  · have hd := hf d h
    rw [hrun] at hd
    rw [run_bind_of_error hrun]
    exact hd
  · have hd := hf d h
    rw [hrun] at hd
    rw [run_bind_of_ok hrun]
    exact hg value d' hd

theorem forM {xs : List α} {f : α → Filing Unit} (hf : ∀ x ∈ xs, KeepsSound (f x)) : KeepsSound (xs.forM f) := by
  induction xs with
  | nil => exact .pure ()
  | cons x rest ih =>
      rw [List.forall_mem_cons] at hf
      exact .bind hf.1 fun _ => ih hf.2

end KeepsSound

theorem sound_makeDirectory {d d' : Disk} {path : String} (h : d.Sound) (hm : d.makeDirectory path = .ok d') :
    d'.Sound := by
  obtain ⟨⟨slash, hfind⟩, rfl⟩ := makeDirectory_eq_ok hm
  obtain ⟨-, parent, name, hplace, hparent, hname⟩ := h.ends_find hfind
  rw [hplace]
  exact h.put hparent hname (.inl rfl)

theorem sound_write {d d' : Disk} {path : String} {content : ByteArray} (h : d.Sound)
    (hw : d.write path content = .ok d') : d'.Sound := by
  obtain ⟨hfind, hfree, -, rfl⟩ := write_eq_ok_iff.mp hw
  obtain ⟨parent, name, hplace, hparent, hname⟩ := (h.ends_find hfind).inDirectory hfree
  rw [hplace] at hfree ⊢
  exact h.put hparent hname (.inr hfree)

theorem sound_remove {d d' : Disk} {path : String} (h : d.Sound) (hr : d.remove path = .ok d') : d'.Sound := by
  obtain ⟨⟨content, hfind⟩, rfl⟩ := remove_eq_ok hr
  exact h.erase (h.ends_find hfind).1

theorem MadeAll.sound {path : String} {d d' : Disk} {result : Except SystemError Unit} (h : MadeAll path d result d')
    (hd : d.Sound) : d'.Sound := by
  induction h with
  | empty => exact hd
  | there => exact hd
  | made hmake => exact sound_makeDirectory hd hmake
  | failed => exact hd
  | failedAbove hp above ih => exact ih hd
  | behind hp above own iha iho => exact iho (iha hd)

theorem keepsSound_ensureDirectory (path : String) : KeepsSound (ensureDirectory path) := by
  intro d h
  rw [run_ensureDirectory]
  exact (madeAll_makeAll _ path d).sound h

theorem keepsSound_write (path : String) (content : ByteArray) : KeepsSound (write path content) :=
  .change fun _ _ h hw => sound_write h hw

theorem keepsSound_remove (path : String) : KeepsSound (change "remove" path (·.remove path)) :=
  .change fun _ _ h hr => sound_remove h hr

theorem keepsSound_writeWithParents (path : String) (content : ByteArray) :
    KeepsSound (writeWithParents path content) := by
  have hwrite := keepsSound_write path content
  unfold writeWithParents
  split
  · split
    · exact hwrite
    · exact .bind (keepsSound_ensureDirectory _) fun _ => hwrite
  · exact hwrite

theorem keepsSound_ensureTracked (path : String) : KeepsSound (ensureTracked path) := by
  rw [ensureTracked_eq]
  refine .bind (keepsSound_ensureDirectory path) fun _ => .bind (.ask _ _ _) fun entries => ?_
  split
  · exact .bind (keepsSound_write _ _) fun _ => .pure true
  · exact .pure false

theorem keepsSound_ensureAllTracked (paths : List String) : KeepsSound (ensureAllTracked paths) := by
  induction paths with
  | nil => exact .pure ()
  | cons path rest ih => exact .bind (keepsSound_ensureTracked path) fun _ => ih

end Filing

theorem Task.keepsSound_perform (task : Task) : Filing.KeepsSound task.perform := by
  cases task with
  | makeDirectory path => exact Filing.keepsSound_ensureDirectory path
  | writeFile path text => exact Filing.keepsSound_write path text.toUTF8

end RouteScaffold
