import RouteScaffold.Proofs.Files.Sound
import RouteScaffold.Proofs.Writing.OnDisk

/-!
# Tasks that are repeated

What a task is to leave stays where it is as long as nothing is removed or changes its kind (`Task.Done`), and then the
task can be performed again.

* `Disk.Fits`: a disk has the directories of another, and files at most where that one has;
* `Task.Done.perform`: on such a disk a task succeeds that is done on the other;
* `Groups.Writes.again`: so do all writers of a plan, in whatever order they write.
-/

namespace RouteScaffold

open Disk

/-! ## 1. What is done -/

/-- What a task is to make is there, a directory or a file that may be written. -/
def Task.Done (d : Disk) : Task → Prop
  | .makeDirectory path => path = "" ∨ d.isDirectory path = true
  | .writeFile path _ =>
    ∃ place content, d.find path = .ok ⟨.file place content, false⟩ ∧ d.refuses .change place = false

/-- **A task that succeeds is done.** -/
theorem Task.done_perform {task : Task} {d d' : Disk} (h : task.perform.run d = (.ok (), d')) : task.Done d' := by
  cases task with
  | makeDirectory path => exact Filing.isDirectory_of_ensureDirectory h
  | writeFile path text =>
      have hgrows := (left_perform h).grows
      obtain ⟨hne, hput, hfree⟩ := Filing.put_write h
      obtain ⟨hfind, -, hpermitted, -⟩ := write_eq_ok_iff.mp (Filing.change_ok h)
      have hfile : d'.foundAt (target d.here path) = .file (target d.here path) text.toUTF8 :=
        foundAt_file (by rw [hput, entry?_put d hne, if_pos rfl])
      have hfind' := find_of_keeps hgrows.keeps hgrows.here hfind
      rw [Found.on_foundAt hfree, hfile] at hfind'
      exact ⟨target d.here path, text.toUTF8, hfind', by rw [hgrows.stand]; exact hpermitted⟩

/-- What is done stays done. -/
theorem Task.Done.grows {task : Task} {d d' : Disk} (h : task.Done d) (hg : d.Grows d') : task.Done d' := by
  cases task with
  | makeDirectory path => exact h.imp_right (isDirectory_of_keeps hg.keeps hg.here)
  | writeFile path text =>
      obtain ⟨place, content, hfind, hpermitted⟩ := h
      obtain ⟨content', hentry⟩ := hg.file (leads_find hfind).2.2
      refine ⟨place, content', ?_, by rw [hg.stand]; exact hpermitted⟩
      rw [← foundAt_file hentry]
      exact find_of_keeps hg.keeps hg.here hfind

/-! ## 2. Performing again -/

/-- A disk has the same directories as another, and files at most where the other has files. -/
structure Disk.Fits (e d : Disk) : Prop where
  stand : d.toStandpoint = e.toStandpoint
  directory : ∀ x, d.entry? x = some .directory ↔ e.entry? x = some .directory
  file : ∀ x content, d.entry? x = some (.file content) → ∃ content', e.entry? x = some (.file content')

theorem Disk.Fits.here {e d : Disk} (h : e.Fits d) : d.here = e.here := congrArg Standpoint.here h.stand

/-- A file put where the other disk has one. -/
theorem Disk.Fits.put {e d : Disk} (h : e.Fits d) {place : Place} (hne : place ≠ []) {content : ByteArray}
    (hfile : e.entry? place = some (.file content)) (content' : ByteArray) : e.Fits (d.put place (.file content')) where
  stand := h.stand
  directory x := by
    rw [entry?_put d hne]
    by_cases hx : x = place
    · rw [if_pos hx, hx, hfile]
      exact ⟨fun h => (by cases h), fun h => (by cases h)⟩
    · rw [if_neg hx]
      exact h.directory x
  file x c := by
    rw [entry?_put d hne]
    by_cases hx : x = place
    · rw [hx]
      exact fun _ => ⟨content, hfile⟩
    · rw [if_neg hx]
      exact h.file x c

/-- **A task that is done on a disk succeeds on one that fits it.** -/
theorem Task.Done.perform {task : Task} {e d : Disk} (h : task.Done e) (hf : e.Fits d) :
    ∃ d', task.perform.run d = (.ok (), d') ∧ e.Fits d' := by
  have hkeeps : KeepsDirectories e d := fun x hx => (hf.directory x).mpr hx
  cases task with
  | makeDirectory path =>
      refine ⟨d, ?_, hf⟩
      rcases h with rfl | hdirectory
      · rfl
      · exact Filing.ensureDirectory_of_isDirectory (isDirectory_of_keeps hkeeps hf.here hdirectory)
  | writeFile path text =>
      obtain ⟨place, content, hfind, hpermitted⟩ := h
      obtain ⟨hplace, hne, hfile⟩ := leads_find hfind
      have htarget : target d.here path = place := by rw [hf.here, hplace]; rfl
      have hwrite : d.write path text.toUTF8 = .ok (d.put place (.file text.toUTF8)) := by
        rw [write_eq_ok_iff, htarget]
        refine ⟨find_of_keeps hkeeps hf.here hfind, fun hdirectory => ?_, by rw [hf.stand]; exact hpermitted, rfl⟩
        rw [hf.directory, hfile] at hdirectory
        cases hdirectory
      refine ⟨_, ?_, hf.put hne hfile text.toUTF8⟩
      have hrun := Filing.run_change "write" path (·.write path text.toUTF8) d
      rw [hwrite] at hrun
      exact hrun

/-! ## 3. One after the other -/

/-- **Tasks that succeed one after the other** have each left what it is to leave, and are done. -/
theorem left_forM {tasks : List Task} {d d' : Disk} (h : (tasks.forM Task.perform).run d = (.ok (), d')) :
    Left tasks d d' ∧ ∀ t ∈ tasks, t.Done d' := by
  induction tasks generalizing d with
  | nil =>
      cases h
      exact ⟨.nil _, List.forall_mem_nil _⟩
  | cons task rest ih =>
      obtain ⟨⟨⟩, d₁, hfirst, hrest⟩ := run_bind_eq_ok.mp h
      obtain ⟨hleft, hdone⟩ := ih hrest
      exact ⟨(left_perform hfirst).append hleft,
        List.forall_mem_cons.mpr ⟨(Task.done_perform hfirst).grows hleft.grows, hdone⟩⟩

theorem forM_of_done {tasks : List Task} {e d : Disk} (hdone : ∀ t ∈ tasks, t.Done e) (hf : e.Fits d) :
    ∃ d', (tasks.forM Task.perform).run d = (.ok (), d') ∧ e.Fits d' := by
  induction tasks generalizing d with
  | nil => exact ⟨d, rfl, hf⟩
  | cons task rest ih =>
      rw [List.forall_mem_cons] at hdone
      obtain ⟨d₁, hfirst, hfits⟩ := hdone.1.perform hf
      obtain ⟨d', hrest, hfits'⟩ := ih hdone.2 hfits
      exact ⟨d', run_bind_eq_ok.mpr ⟨(), d₁, hfirst, hrest⟩, hfits'⟩

/-- The tasks of writing a file with the directories on the way to it. -/
def tasksWithParents (path text : String) : List Task :=
  (Path.parent? path).toList.map .makeDirectory ++ [.writeFile path text]

theorem Filing.writeWithParents_eq (path text : String) :
    writeWithParents path text.toUTF8 = (tasksWithParents path text).forM Task.perform := by
  have hempty : ensureDirectory "" = pure () := rfl
  have hlast : [Task.writeFile path text].forM Task.perform = write path text.toUTF8 := bind_pure _
  unfold writeWithParents tasksWithParents
  cases hparent : Path.parent? path with
  | none => exact hlast.symm
  | some parent =>
      have hcons : ((some parent).toList.map Task.makeDirectory ++ [Task.writeFile path text]).forM Task.perform =
          ensureDirectory parent >>= fun _ => [Task.writeFile path text].forM Task.perform := rfl
      rw [hcons, hlast]
      dsimp only
      by_cases he : parent.isEmpty = true
      · rw [if_pos he, String.isEmpty_iff.mp he, hempty]
        rfl
      · rw [if_neg he]

/-! ## 4. Writers side by side -/

open Writers

theorem Carries.allDone {events : List (Performed FileError)} {d d' : Disk} (h : Carries d events d')
    (he : ∀ p ∈ events, p.error = none) : ∀ p ∈ events, p.operation.task.Done d' := by
  induction h with
  | refl => exact List.forall_mem_nil _
  | done hanswer hmore ih =>
      rw [List.forall_mem_cons] at he
      exact List.forall_mem_cons.mpr ⟨(Task.done_perform (Prod.ext hanswer rfl)).grows (hmore.left he.2).grows, ih he.2⟩
  | failed => cases he _ List.mem_cons_self

theorem Carries.sound {events : List (Performed FileError)} {d d' : Disk} (h : Carries d events d') (hd : d.Sound) :
    d'.Sound := by
  induction h with
  | refl => exact hd
  | done _ _ ih => exact ih (Task.keepsSound_perform _ _ hd)
  | failed _ _ ih => exact ih (Task.keepsSound_perform _ _ hd)

theorem Carries.again {events : List (Performed FileError)} {e d d' : Disk} (h : Carries d events d')
    (hdone : ∀ p ∈ events, p.operation.task.Done e) (hf : e.Fits d) :
    (∀ p ∈ events, p.error = none) ∧ e.Fits d' := by
  induction h with
  | refl => exact ⟨List.forall_mem_nil _, hf⟩
  | done _ _ ih =>
      rw [List.forall_mem_cons] at hdone
      obtain ⟨d₁, hrun, hfits⟩ := hdone.1.perform hf
      obtain ⟨hnone, hfits'⟩ := ih hdone.2 (by rw [hrun]; exact hfits)
      exact ⟨List.forall_mem_cons.mpr ⟨rfl, hnone⟩, hfits'⟩
  | failed hanswer =>
      rw [List.forall_mem_cons] at hdone
      obtain ⟨d₁, hrun, -⟩ := hdone.1.perform hf
      rw [hrun] at hanswer
      cases hanswer

/-- Nothing is performed but tasks of the plan. -/
theorem Groups.mem_tasks_of_run {root : String} {g : Groups} {events : List (Performed FileError)}
    {w : Writers FileError} (h : Run (start (g.under root)) events w) :
    ∀ p ∈ events, p.operation.task ∈ (g.under root).tasks := by
  intro p hp
  obtain ⟨before, after, rfl⟩ := List.append_of_mem hp
  obtain ⟨q, hq, ho, -⟩ := (due_of_run h).next
  rw [← Groups.task_operations [] 0]
  exact List.mem_map_of_mem (List.mem_flatMap.mpr ⟨q, hq, ho⟩)

namespace Groups.Writes

variable {root : String} {g : Groups}

theorem sound {d d' : Disk} {result : Except FileError Nat} (h : g.Writes root d result d') (hd : d.Sound) :
    d'.Sound := by
  obtain ⟨_, _, -, hcarries, -⟩ := h
  exact hcarries.sound hd

/-- **When the writers of a plan have all finished** its tasks are done. -/
theorem done {d d' : Disk} {n : Nat} (h : g.Writes root d (.ok n) d') : ∀ t ∈ (g.under root).tasks, t.Done d' := by
  obtain ⟨events, w, hrun, hcarries, hreturns⟩ := h
  have hdisciplined := disciplined_of_run hrun
  have hok : ∀ p ∈ events, p.error = none := by
    intro p hp
    by_contra hne
    obtain ⟨e, he⟩ := (hdisciplined.returns _ hreturns).mpr ⟨p, hp, hne⟩
    cases he
  obtain ⟨-, hperm, -⟩ := (inOrder_of_run hrun hok).returns _ hreturns
  intro t ht
  obtain ⟨p, hp, rfl⟩ := List.mem_map.mp (hperm.mem_iff.mpr ht)
  exact hcarries.allDone hok p hp

/-- **The writers of a plan that is done all finish again**, on a disk that fits. -/
theorem again {e d d' : Disk} {result : Except FileError Nat} (h : g.Writes root d result d')
    (hdone : ∀ t ∈ (g.under root).tasks, t.Done e) (hf : e.Fits d) : result = .ok g.count ∧ e.Fits d' := by
  obtain ⟨events, w, hrun, hcarries, hreturns⟩ := h
  obtain ⟨hok, hfits⟩ := hcarries.again (fun p hp => hdone _ (mem_tasks_of_run hrun p hp)) hf
  obtain ⟨hresult, -⟩ := (inOrder_of_run hrun hok).returns _ hreturns
  rw [Groups.count, Groups.counts_under] at hresult
  exact ⟨hresult, hfits⟩

end Groups.Writes

end RouteScaffold
