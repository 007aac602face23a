import RouteScaffold.Proofs.Files.Removed

/-!
# Files that are removed

Of the files right in a directory those with some names are removed.

* `Disk.Cleared`: what this changes;
* `Filing.cleared_of_removeWhere`: on a disk that is a tree `Filing.removeWhere` changes this and nothing else;
* `Filing.removeWhere_of_found`: it succeeds if the files that are to be removed are found by their paths.
-/

namespace RouteScaffold

namespace Disk

variable {d d' : Disk}

/-! ## 1. What is changed -/

/-- Of the files right in a directory those are removed whose names satisfy `p`. -/
structure Cleared (directory : Place) (p : String → Bool) (d d' : Disk) : Prop where
  stand : d'.toStandpoint = d.toStandpoint
  gone : ∀ name content, p name = true → d.entry? (directory ++ [name]) = some (.file content) →
    d'.entry? (directory ++ [name]) = none
  kept : ∀ x, d'.entry? x = d.entry? x ∨ d'.entry? x = none ∧
    ∃ name content, p name = true ∧ x = directory ++ [name] ∧ d.entry? x = some (.file content)

namespace Cleared

variable {directory : Place} {p : String → Bool} (h : Cleared directory p d d')

include h

theorem here : d'.here = d.here := congrArg Standpoint.here h.stand

theorem keeps : KeepsDirectories d d' := by
  intro x hx
  rcases h.kept x with hsame | ⟨-, _, _, -, -, hfile⟩
  · rw [hsame, hx]
  · rw [hx] at hfile
    cases hfile

theorem within : Within directory d d' := by
  refine ⟨h.stand, h.keeps, fun x hx => ?_⟩
  obtain ⟨-, name, _, -, rfl, -⟩ := (h.kept x).resolve_left hx
  exact below_append directory (List.cons_ne_nil name [])

theorem fits : d.Fits d' := by
  refine ⟨h.stand, fun x => ⟨fun hx => ?_, h.keeps x⟩, fun x content hx => ?_⟩
  · rcases h.kept x with hsame | ⟨hnone, -⟩
    · rw [← hsame, hx]
    · rw [hx] at hnone
      cases hnone
  · rcases h.kept x with hsame | ⟨hnone, -⟩
    · exact ⟨content, by rw [← hsame, hx]⟩
    · rw [hx] at hnone
      cases hnone

end Cleared

end Disk

open Disk

namespace Filing

variable {d d' : Disk} {directory : String} {p : String → Bool}

/-! ## 2. Removing -/

theorem remove_of_find {path : String} {place : Place} {content : ByteArray}
    (h : d.find path = .ok ⟨.file place content, false⟩) (hp : d.refuses .change place = false) :
    d.remove path = .ok (d.erase place) :=
  bind_eq_ok.mpr ⟨_, h, permit_bind_eq_ok.mpr ⟨hp, rfl⟩⟩

/-- **Removing files by their names removes these and nothing else.** -/
theorem cleared_of_removeWhere (hs : d.Sound) {paths : List String}
    (h : (removeWhere directory p).run d = (.ok paths, d')) :
    d.Listable directory ∧ d'.Sound ∧ Cleared (target d.here directory) p d d' := by
  have hlistable : d.Listable directory := by
    by_contra hd
    obtain ⟨e, hrun⟩ := removeWhere_of_not_listable hd p
    cases h.symm.trans hrun
  obtain ⟨names, result, gone, d'', -, hmem, hremoved, hrun, hsound, hlacks⟩ := removedUpTo_removeWhere hs hlistable p
  cases hremoved with
  | ahead => cases h.symm.trans hrun
  | all =>
      cases h.symm.trans hrun
      refine ⟨hlistable, hsound, hlacks.stand, fun name content hp hfile => ?_, fun x => ?_⟩
      · rw [hlacks.entries, if_pos (List.mem_map_of_mem ((hmem name).mpr ⟨hp, content, hfile⟩))]
      · rw [hlacks.entries]
        by_cases hx : x ∈ names.map fun name => target d.here directory ++ [name]
        · rw [if_pos hx]
          obtain ⟨name, hn, rfl⟩ := List.mem_map.mp hx
          obtain ⟨hp, content, hfile⟩ := (hmem name).mp hn
          exact .inr ⟨rfl, name, content, hp, rfl, hfile⟩
        · rw [if_neg hx]
          exact .inl rfl

/-- **Files can be removed that are found by their paths** and may be changed. -/
theorem removeWhere_of_found (hs : d.Sound) (hd : d.Listable directory)
    (hf : ∀ name content, p name = true → d.entry? (target d.here directory ++ [name]) = some (.file content) →
      ∃ place content, d.find (Path.join directory name) = .ok ⟨.file place content, false⟩ ∧
        d.refuses .change place = false) :
    ∃ paths d', (removeWhere directory p).run d = (.ok paths, d') := by
  obtain ⟨names, result, gone, d', -, hmem, hremoved, hrun, -, -⟩ := removedUpTo_removeWhere hs hd p
  cases hremoved with
  | all => exact ⟨_, d', hrun⟩
  | @ahead _ after name e hwanted _ hrefused =>
      -- A file that is found is not refused.
      obtain ⟨hp, content, hfile⟩ := (hmem name).mp (by rw [hwanted]; exact List.mem_append_right _ List.mem_cons_self)
      obtain ⟨place, content, hfind, hpermitted⟩ := hf name content hp hfile
      rw [refusal?, remove_of_find hfind hpermitted] at hrefused
      cases hrefused

end Filing

end RouteScaffold
