import RouteScaffold.Proofs.Files.Effects
import RouteScaffold.Proofs.Joining

/-!
# What is kept on a disk

A path that was followed to its end leads there as long as the directories on its way are kept (`Disk.find_of_keeps`).

* `Disk.target_join`, `Disk.way_join`: where a path leads that is joined to a base;
* `Disk.Grows`: nothing is removed, no file becomes a directory, nor the other way round; so it is with tasks that
  succeed (`Left.grows`) and with directories that are made (`Disk.Makes.grows`).
-/

namespace RouteScaffold

namespace Path

/-! ## 1. Joined paths -/

theorem steps_join {path : String} (h : isAbsolute path = false) (base : String) :
    steps (join base path) = steps base ++ steps path := by
  obtain ⟨front, hbase, hjoin⟩ := pieces_join h base
  have hsteps : steps base = (front.map String.ofList).filter isStep := by
    rcases hbase with hbase | hbase
    · rw [steps, segments, hbase]
    · rw [steps, segments, hbase, List.map_append, List.filter_append]
      exact List.append_nil _
  rw [hsteps, steps, segments, hjoin, List.map_append, List.filter_append]
  rfl

/-- A path without steps up has names only. -/
theorem steps_names {path : String} (h : .parent ∉ components path) :
    ∀ step ∈ steps path, isStep step = true ∧ step ≠ ".." := by
  intro step hs
  obtain ⟨hm, hstep⟩ := List.mem_filter.mp hs
  refine ⟨hstep, ?_⟩
  rintro rfl
  obtain ⟨piece, hp, hup⟩ := List.mem_map.mp hm
  have hpiece : piece = ['.', '.'] := by rw [← String.toList_ofList (l := piece), hup]; rfl
  rw [hpiece] at hp
  exact h (List.mem_append_right _ (List.mem_filterMap.mpr ⟨_, hp, rfl⟩))

end Path

namespace Disk

section Joined

variable {path : String} (h : Path.isAbsolute path = false) (here : Place) (base : String)

include h

theorem origin_join : origin here (Path.join base path) = origin here base := by
  rw [origin, origin, Path.isAbsolute_join h]

/-- **A joined path leads on from where its base leads.** -/
theorem target_join : target here (Path.join base path) = placeFrom (target here base) (Path.steps path) := by
  rw [target, origin_join h, Path.steps_join h, placeFrom_append]
  rfl

theorem way_join : way here (Path.join base path) = way here base ++ entered (target here base) (Path.steps path) := by
  rw [way, origin_join h, Path.steps_join h, entered_append]
  rfl

end Joined

/-- A place is below another, and not the same. -/
def Below (base x : Place) : Prop := base <+: x ∧ x ≠ base

theorem below_append {names : List String} (base : Place) (h : names ≠ []) : Below base (base ++ names) :=
  ⟨List.prefix_append _ _, fun he => h (List.append_cancel_left (he.trans (List.append_nil base).symm))⟩

theorem Below.trans {base middle x : Place} (h : base <+: middle) (hx : Below middle x) : Below base x := by
  refine ⟨h.trans hx.1, fun he => hx.2 ?_⟩
  have hlength := h.length_le
  rw [← he] at hlength
  exact (hx.1.eq_of_length_le hlength).symm

/-- Names are entered below the place from which they lead. -/
theorem below_entered {names : List String} (h : ∀ name ∈ names, Path.isStep name = true ∧ name ≠ "..")
    {place x : Place} (hx : x ∈ entered place names) : Below place x := by
  induction names generalizing place with
  | nil => cases hx
  | cons name rest ih =>
      rw [List.forall_mem_cons] at h
      have hname : Below place (place ++ [name]) := below_append place (List.cons_ne_nil _ _)
      rw [entered, if_neg (Path.isStep_iff.mp h.1.1), if_neg h.1.2, List.mem_cons] at hx
      rcases hx with rfl | hx
      · exact hname
      · exact .trans hname.1 (ih h.2 hx)

/-! ## 2. Ends that are kept -/

/-- All directories of a disk are directories of another too. -/
def KeepsDirectories (d d' : Disk) : Prop := ∀ x, d.entry? x = some .directory → d'.entry? x = some .directory

/-- What is at the end of a path, on another disk. -/
def Found.on (d' : Disk) : Found → Found
  | .directory place => .directory place
  | .file place _ => d'.foundAt place
  | .absent place => d'.foundAt place

theorem Found.on_foundAt {d : Disk} {place : Place} (h : d.entry? place ≠ some .directory) (d' : Disk) :
    (d.foundAt place).on d' = d'.foundAt place := by
  cases hentry : d.entry? place with
  | none => rw [foundAt_none hentry, on]
  | some entry =>
      cases entry with
      | directory => exact absurd hentry h
      | file content => rw [foundAt_file hentry, on]

/-- At the last piece it does not matter what stands there. -/
theorem Follows.last (d : Disk) (place : Place) {piece : String} (hp : Path.Enters piece) :
    d.Follows place [piece] (d.foundAt (place ++ [piece])) := by
  unfold foundAt
  split
  · exact .enter hp ‹_› (.done _)
  · exact .file hp ‹_›
  · exact .absent hp ‹_›

section Keeps

variable {d d' : Disk} (hd : KeepsDirectories d d')

include hd

/-- **Pieces lead where they led while the directories are kept.** -/
theorem Follows.keeps {place : Place} {pieces : List String} {found : Found} (h : d.Follows place pieces found) :
    d'.Follows place pieces (found.on d') := by
  induction h with
  | done place => exact .done place
  | stay hstay more ih => exact .stay hstay ih
  | up more ih => exact .up ih
  | enter hp hentry more ih => exact .enter hp (hd _ hentry) ih
  | file hp hentry => exact .last d' _ hp
  | absent hp hentry => exact .last d' _ hp

theorem find_of_keeps (hh : d'.here = d.here) {path : String} {e : Ending} (h : d.find path = .ok e) :
    d'.find path = .ok ⟨e.found.on d', e.slash⟩ := by
  obtain ⟨hvalid, hfollows, hslash⟩ := find_eq_ok_iff.mp h
  refine find_eq_ok_iff.mpr ⟨hvalid, ?_, hslash⟩
  rw [hh]
  exact hfollows.keeps hd

theorem isDirectory_of_keeps (hh : d'.here = d.here) {path : String} (h : d.isDirectory path = true) :
    d'.isDirectory path = true := by
  obtain ⟨slash, hfind⟩ := isDirectory_iff.mp h
  rw [isDirectory, find_of_keeps hd hh hfind]
  rfl

end Keeps

/-! ## 3. Growing disks -/

/-- Nothing is removed, and nothing changes its kind. -/
structure Grows (d d' : Disk) : Prop where
  stand : d'.toStandpoint = d.toStandpoint
  kind : ∀ x e, d.entry? x = some e → ∃ e', d'.entry? x = some e' ∧ e.SameKind e'

theorem Grows.here {d d' : Disk} (h : Grows d d') : d'.here = d.here := congrArg Standpoint.here h.stand

theorem Grows.refl (d : Disk) : Grows d d := ⟨rfl, fun _ e he => ⟨e, he, rfl⟩⟩

theorem Grows.trans {d d' d'' : Disk} (h : Grows d d') (h' : Grows d' d'') : Grows d d'' where
  stand := h'.stand.trans h.stand
  kind x e he := by
    obtain ⟨e₁, he₁, hkind₁⟩ := h.kind x e he
    obtain ⟨e₂, he₂, hkind₂⟩ := h'.kind x e₁ he₁
    exact ⟨e₂, he₂, hkind₁.trans hkind₂⟩

theorem Grows.keeps {d d' : Disk} (h : Grows d d') : KeepsDirectories d d' := by
  intro x hx
  obtain ⟨e, he, hkind⟩ := h.kind x _ hx
  cases e with
  | directory => exact he
  | file => cases hkind

/-- A file stays a file. -/
theorem Grows.file {d d' : Disk} (h : Grows d d') {x : Place} {content : ByteArray}
    (hx : d.entry? x = some (.file content)) : ∃ content', d'.entry? x = some (.file content') := by
  obtain ⟨e, he, hkind⟩ := h.kind x _ hx
  cases e with
  | directory => cases hkind
  | file content' => exact ⟨content', he⟩

end Disk

theorem Left.grows {tasks : List Task} {d d' : Disk} (h : Left tasks d d') : d.Grows d' := ⟨h.stand, h.kind⟩

open Disk

theorem Disk.Makes.grows {places : List Place} {d d' : Disk} (h : Makes places d d') : d.Grows d' where
  stand := h.stand
  kind x e he := by
    by_cases hx : x ∈ places
    · have hfree := (h.free x hx).resolve_left (by rw [he]; exact Option.some_ne_none e)
      rw [he] at hfree
      cases hfree
      exact ⟨.directory, h.made x hx, rfl⟩
    · exact ⟨e, (h.others x hx).trans he, rfl⟩

end RouteScaffold
