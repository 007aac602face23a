import Mathlib.Data.List.Nodup
import RouteScaffold.Proofs.Files.Kept
import RouteScaffold.Proofs.Writing.Positions

/-!
# Tasks below a root

A relative path whose steps lead on, and none upwards, leads below every root to which it is joined (`Path.Inner`). So
does one whose segments are such steps (`Path.Plain`), which is told apart from others by where it leads.

* `Disk.target_inner`, `Disk.target_plain`: where they lead;
* `Disk.Within`: nothing changes but below a place; `Left.within`: so it is with tasks inside a root that is there;
* `Groups.written_once`: the files of a plan whose paths are plain and differ are written at different places.
-/

namespace RouteScaffold

namespace Path

/-! ## 1. Plain paths -/

/-- A segment that leads on, and not upwards. -/
def Leads (segment : String) : Prop := isStep segment = true ∧ segment ≠ ".."

instance (segment : String) : Decidable (Leads segment) := inferInstanceAs (Decidable (_ ∧ _))

/-- All segments of a path lead on, and none upwards. -/
def Plain (path : String) : Prop := ∀ segment ∈ segments path, Leads segment

instance (path : String) : Decidable (Plain path) :=
  inferInstanceAs (Decidable (∀ segment ∈ segments path, Leads segment))

theorem not_leads_empty : ¬ Leads "" := by decide

namespace Plain

variable {path : String} (h : Plain path)

include h

theorem isAbsolute : isAbsolute path = false := by
  cases hl : path.toList with
  | nil =>
      rw [Path.isAbsolute, hl]
      rfl
  | cons c rest =>
      have hfirst : c ≠ '/' := by
        rintro rfl
        refine not_leads_empty (h "" ?_)
        rw [segments, hl, pieces, if_pos rfl]
        exact List.mem_cons_self
      rw [Path.isAbsolute, hl]
      simpa using hfirst

theorem steps : steps path = segments path := List.filter_eq_self.mpr fun segment hs => (h segment hs).1

end Plain

/-- A path that is relative and whose steps lead on, and not upwards. -/
structure Inner (path : String) : Prop where
  relative : isAbsolute path = false
  names : ∀ step ∈ steps path, Leads step

theorem Plain.inner {path : String} (h : Plain path) : Inner path := ⟨h.isAbsolute, by rw [h.steps]; exact h⟩

theorem Inner.empty : Inner "" := ⟨rfl, fun step hs => by cases hs⟩

theorem Inner.parent? {path parent : String} (h : Inner path) (hp : parent? path = some parent) : Inner parent := by
  rcases steps_parent? hp with rfl | ⟨habsolute, more, hsteps⟩
  · exact .empty
  · refine ⟨habsolute.trans h.relative, fun step hs => h.names step ?_⟩
    rw [hsteps]
    exact List.mem_append_left _ hs

end Path

namespace Disk

section Inner

variable {path : String} (h : Path.Inner path) (here : Place) (root : String)

include h

/-- **Seen from a root, an inner path leads to the end of its steps.** -/
theorem target_inner : target here (Path.join root path) = target here root ++ Path.steps path := by
  rw [target_join h.relative, placeFrom_names h.names]

theorem way_inner {x : Place} (hx : x ∈ way here (Path.join root path)) :
    x ∈ way here root ∨ Below (target here root) x := by
  rw [way_join h.relative, List.mem_append] at hx
  exact hx.imp_right (below_entered h.names)

end Inner

/-- A plain path leads to the end of its segments. -/
theorem target_plain {path : String} (h : Path.Plain path) (here : Place) (root : String) :
    target here (Path.join root path) = target here root ++ Path.segments path := by
  rw [target_inner h.inner, h.steps]

/-! ## 2. Changes below a place -/

/-- Nothing changes but below a place, and what is a directory stays one. -/
structure Within (base : Place) (d d' : Disk) : Prop where
  stand : d'.toStandpoint = d.toStandpoint
  keeps : KeepsDirectories d d'
  changed : ∀ x, d'.entry? x ≠ d.entry? x → Below base x

theorem Within.here {base : Place} {d d' : Disk} (h : Within base d d') : d'.here = d.here :=
  congrArg Standpoint.here h.stand

theorem Within.refl (base : Place) (d : Disk) : Within base d d := ⟨rfl, fun _ h => h, fun _ hx => absurd rfl hx⟩

theorem Within.trans {base : Place} {d d' d'' : Disk} (h : Within base d d') (h' : Within base d' d'') :
    Within base d d'' where
  stand := h'.stand.trans h.stand
  keeps x hx := h'.keeps x (h.keeps x hx)
  changed x hx := by
    by_cases hfirst : d'.entry? x = d.entry? x
    · exact h'.changed x (by rw [hfirst]; exact hx)
    · exact h.changed x hfirst

theorem Within.mono {base above : Place} {d d' : Disk} (h : Within base d d') (ha : above <+: base) :
    Within above d d' :=
  ⟨h.stand, h.keeps, fun x hx => .trans ha (h.changed x hx)⟩

/-- A root is there: the place to which it leads, and all on the way. -/
structure HasRoot (d : Disk) (root : String) : Prop where
  target : d.entry? (target d.here root) = some .directory
  way : ∀ x ∈ way d.here root, d.entry? x = some .directory

theorem HasRoot.keeps {d d' : Disk} {root : String} (h : d.HasRoot root) (hk : KeepsDirectories d d')
    (hh : d'.here = d.here) : d'.HasRoot root where
  target := by
    rw [hh]
    exact hk _ h.target
  way := by
    rw [hh]
    exact fun x hx => hk x (h.way x hx)

end Disk

open Disk

/-- A task leaves nothing but on the way of a root and at the place to which it leads, and below. -/
def Task.Inside (here : Place) (root : String) (t : Task) : Prop :=
  ∀ x, t.leaves here x ≠ none → x ∈ way here root ∨ target here root <+: x

/-- A task whose path is an inner one leaves nothing outside of the root from which it is seen. -/
theorem Task.inside_under {t : Task} (h : Path.Inner t.path) (here : Place) (root : String) :
    (t.under root).Inside here root := by
  intro x hx
  obtain ⟨e, he⟩ := Option.ne_none_iff_exists'.mp hx
  cases t with
  | makeDirectory path => exact (way_inner h here root (Task.leaves_makeDirectory.mp he).1).imp_right And.left
  | writeFile path text =>
      have hinner : Path.Inner path := h
      rw [(Task.leaves_writeFile.mp he).1, target_inner hinner]
      exact .inr (List.prefix_append _ _)

/-- **Tasks inside a root change nothing but below it**, if it is there. -/
theorem Left.within {tasks : List Task} {d d' : Disk} (h : Left tasks d d') {root : String} (hr : d.HasRoot root)
    (hi : ∀ t ∈ tasks, t.Inside d.here root) : Within (target d.here root) d d' where
  stand := h.stand
  keeps := h.grows.keeps
  changed x hx := by
    -- What is a directory does not change.
    have hdirectory : d.entry? x ≠ some .directory := fun hd => hx (by rw [hd, h.grows.keeps x hd])
    obtain ⟨t, ht, hleaves⟩ : ∃ t ∈ tasks, t.leaves d.here x ≠ none := by
      by_contra hnone
      refine hx (h.others x fun t ht => by_contra fun hleaves => hnone ⟨t, ht, hleaves⟩)
    rcases hi t ht x hleaves with hway | hfront
    · exact absurd (hr.way x hway) hdirectory
    · exact ⟨hfront, fun he => hdirectory (he ▸ hr.target)⟩

/-! ## 3. Files of a plan -/

namespace Groups

/-- A file that the tasks of a plan write is one of the plan. -/
theorem mem_files_of_tasks {g : Groups} {path text : String} (h : Task.writeFile path text ∈ g.tasks) :
    ∃ a ∈ g.files, a.path = path ∧ a.content.text = text := by
  induction g with
  | nil => cases h
  | group directory files nested rest ihn ih =>
      rw [tasks, List.mem_append, List.mem_append, List.mem_cons, List.mem_map] at h
      simp only [Groups.files, List.mem_append]
      rcases h with ((h | ⟨a, ha, h⟩) | h) | h
      · cases h
      · cases h
        exact ⟨a, .inl (.inl ha), rfl, rfl⟩
      · obtain ⟨a, ha, hfile⟩ := ihn h
        exact ⟨a, .inl (.inr ha), hfile⟩
      · obtain ⟨a, ha, hfile⟩ := ih h
        exact ⟨a, .inr ha, hfile⟩

theorem mem_tasks_of_files {g : Groups} {a : Artifact} (h : a ∈ g.files) : a.task ∈ g.tasks := by
  induction g with
  | nil => cases h
  | group directory files nested rest ihn ih =>
      rw [Groups.files, List.mem_append, List.mem_append] at h
      rw [tasks, List.mem_append, List.mem_append, List.mem_cons]
      rcases h with (h | h) | h
      · exact .inl (.inl (.inr (List.mem_map_of_mem h)))
      · exact .inl (.inr (ihn h))
      · exact .inr (ih h)

section Files

variable {g : Groups} (hp : ∀ a ∈ g.files, Path.Plain a.path) (root : String) (here : Place)

include hp

/-- What leaves a file is the task of a file of the plan. -/
theorem file_of_leaves {t : Task} (ht : t ∈ (g.under root).tasks) {x : Place} {c : ByteArray}
    (h : t.leaves here x = some (.file c)) : ∃ a ∈ g.files,
      t = a.task.under root ∧ x = target here root ++ Path.segments a.path ∧ c = a.content.text.toUTF8 := by
  rw [tasks_under] at ht
  obtain ⟨task, hm, rfl⟩ := List.mem_map.mp ht
  cases task with
  | makeDirectory path =>
      have hentry := (Task.leaves_makeDirectory.mp h).2
      cases hentry
  | writeFile path text =>
      obtain ⟨a, ha, rfl, rfl⟩ := mem_files_of_tasks hm
      obtain ⟨hx, hentry⟩ := Task.leaves_writeFile.mp h
      cases hentry
      exact ⟨a, ha, rfl, hx.trans (target_plain (hp a ha) here root), rfl⟩

/-- **No two files of a plan are written at one place**, if their paths are plain and differ. -/
theorem written_once (hn : (g.files.map Artifact.path).Nodup) : ∀ t ∈ (g.under root).tasks,
    ∀ t' ∈ (g.under root).tasks, ∀ x c c', t.leaves here x = some (.file c) → t'.leaves here x = some (.file c') →
      c = c' := by
  intro t ht t' ht' x c c' hleaves hleaves'
  obtain ⟨a, ha, -, hx, rfl⟩ := file_of_leaves hp root here ht hleaves
  obtain ⟨a', ha', -, hx', rfl⟩ := file_of_leaves hp root here ht' hleaves'
  have hpath := Path.segments_inj (List.append_cancel_left (hx.symm.trans hx'))
  rw [List.inj_on_of_nodup_map hn ha ha' hpath]

end Files

end Groups

end RouteScaffold
