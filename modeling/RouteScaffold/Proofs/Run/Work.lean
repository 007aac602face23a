import RouteScaffold.Proofs.Configurations
import RouteScaffold.Proofs.Files.Changes
import RouteScaffold.Proofs.Files.Equipped
import RouteScaffold.Proofs.Run.Course

/-!
# What stages do with files

Of the stages of a run one removes files, some write planned files, and one makes directories.

* `Plan.Performs.cleared`: a stage that removes files has removed those of some names;
* `Plan.Performs.wrote`: a stage that writes performs its tasks (`Plan.tasks?`), and `Plan.Performs.again`: it succeeds
  again when they are done;
* `Plan.equips_makeDirectories`: what making directories adds, and what is counted of it;
* `Plan.MayLeave`, `Plan.Performs.changes`: what each of them may change on the disk, also where it fails.
-/

namespace RouteScaffold

open Disk

variable {σ : Type} {plan : Plan} {libs : Libraries σ} {runner : Runner σ}

theorem Request.sources_ne_empty (r : Request) : r.sources ≠ "" := Path.join_ne_empty (by decide) (.inr (by decide))

namespace Plan

/-- Stages other than those that write planned files do what they do in order. -/
theorem Performs.eq_perform {stage : Stage} {p p' : Progress σ} {result : Except RunError Unit}
    (h : plan.Performs libs runner p stage result p') (hp : stage ≠ .projectFiles) (hc : stage ≠ .components) :
    (plan.perform libs runner stage).run p = (result, p') := by
  cases h with
  | projectFiles => exact absurd rfl hp
  | components => exact absurd rfl hc
  | notRendered => exact absurd rfl hc
  | other => rfl

/-! ## 1. Files that are removed -/

theorem filesOnly_removeDefaults (plan : Plan) (engine : PatternEngine) :
    Run.FilesOnly (plan.removeDefaults engine : Run σ Unit) := by
  unfold removeDefaults
  cases engine.compile plan.config.cleanup with
  | error cause => exact .throw _
  | ok fits => exact .bind (.filing _) fun _ p => .refl p

theorem run_removeDefaults {fits : String → Bool} (h : libs.patterns.compile plan.config.cleanup = .ok fits)
    (p : Progress σ) :
    (plan.removeDefaults libs.patterns).run p =
      ((((Filing.removeWhere plan.request.sources fits).run p.workspace.disk).1.mapError .file).map fun _ => (),
        p.withDisk ((Filing.removeWhere plan.request.sources fits).run p.workspace.disk).2) := by
  have hfiling := Run.run_filing (Filing.removeWhere plan.request.sources fits) p
  unfold removeDefaults
  rw [h]
  rcases hrun : (Filing.removeWhere plan.request.sources fits).run p.workspace.disk with ⟨e | paths, d⟩
  · rw [hrun] at hfiling
    exact run_bind_of_error hfiling
  · rw [hrun] at hfiling
    exact run_bind_of_ok hfiling

/-- A stage that removes files and succeeds. -/
theorem Performs.cleared {p p' : Progress σ} (h : plan.Performs libs runner p .cleanup (.ok ()) p')
    (hd : p.workspace.disk.Sound) : ∃ fits, libs.patterns.compile plan.config.cleanup = .ok fits ∧
      p.workspace.disk.Listable plan.request.sources ∧ p'.workspace.disk.Sound ∧
      Cleared (target p.workspace.disk.here plan.request.sources) fits p.workspace.disk p'.workspace.disk := by
  have hrun := h.eq_perform (by decide) (by decide)
  rw [perform] at hrun
  cases hfits : libs.patterns.compile plan.config.cleanup with
  | error cause =>
      unfold removeDefaults at hrun
      rw [hfits] at hrun
      cases hrun
  | ok fits =>
      rw [run_removeDefaults hfits] at hrun
      rcases hremove : (Filing.removeWhere plan.request.sources fits).run p.workspace.disk with ⟨e | paths, d⟩
      · rw [hremove] at hrun
        cases hrun
      · rw [hremove] at hrun
        cases hrun
        exact ⟨fits, rfl, Filing.cleared_of_removeWhere hd hremove⟩

/-- A stage that removes files succeeds if these can be removed. -/
theorem Performs.cleared_again {p p' : Progress σ} {result : Except RunError Unit}
    (h : plan.Performs libs runner p .cleanup result p') {fits : String → Bool}
    (hp : libs.patterns.compile plan.config.cleanup = .ok fits)
    (hr : ∃ paths d, (Filing.removeWhere plan.request.sources fits).run p.workspace.disk = (.ok paths, d)) :
    result = .ok () := by
  have hrun := h.eq_perform (by decide) (by decide)
  obtain ⟨paths, d, hremove⟩ := hr
  rw [perform, run_removeDefaults hp, hremove] at hrun
  cases hrun
  rfl

/-! ## 2. Files that are written -/

/-- The stages that write. -/
def writing : List Stage := [.projectFiles, .components, .routingModule]

theorem mem_writing {stage : Stage} :
    stage ∈ writing ↔ stage = .projectFiles ∨ stage = .components ∨ stage = .routingModule := by
  simp [writing]

/-- The tasks of writing the routing module. -/
def routingTasks (plan : Plan) (source : String) : List Task :=
  tasksWithParents (Path.join plan.request.directory routingModulePath) source

/-- The tasks of a stage that writes, if what it writes is rendered. -/
def tasks? (plan : Plan) : Stage → Option (List Task)
  | .projectFiles => some (ProjectFiles.groups.under plan.request.directory).tasks
  | .components =>
    (Expansion.ofSpec plan.renderer plan.spec).toOption.map fun g => (g.under plan.request.directory).tasks
  | .routingModule =>
    (plan.renderer.routes (.ofSpec plan.config.iconPackage plan.spec)).toOption.map plan.routingTasks
  | _ => none

/-- What the stages are whose tasks are known, and what these tasks are. -/
theorem tasks?_cases {stage : Stage} {tasks : List Task} (h : plan.tasks? stage = some tasks) :
    (stage = .projectFiles ∧ tasks = (ProjectFiles.groups.under plan.request.directory).tasks) ∨
    (stage = .components ∧ ∃ g, Expansion.ofSpec plan.renderer plan.spec = .ok g ∧
      tasks = (g.under plan.request.directory).tasks) ∨
    (stage = .routingModule ∧ ∃ source, plan.renderer.routes (.ofSpec plan.config.iconPackage plan.spec) = .ok source ∧
      tasks = plan.routingTasks source) := by
  cases stage with
  | projectFiles => exact .inl ⟨rfl, (Option.some_inj.mp h).symm⟩
  | components =>
      rw [tasks?] at h
      cases hg : Expansion.ofSpec plan.renderer plan.spec with
      | error fault =>
          rw [hg] at h
          cases h
      | ok g =>
          rw [hg] at h
          exact .inr (.inl ⟨rfl, g, rfl, (Option.some_inj.mp h).symm⟩)
  | routingModule =>
      rw [tasks?] at h
      cases hsource : plan.renderer.routes (.ofSpec plan.config.iconPackage plan.spec) with
      | error fault =>
          rw [hsource] at h
          cases h
      | ok source =>
          rw [hsource] at h
          exact .inr (.inr ⟨rfl, source, rfl, (Option.some_inj.mp h).symm⟩)
  | bootstrap | install | cleanup | directories | format | commit => cases h

/-- Tasks have been performed, in some order: each has left what it is to leave, and is done. -/
structure Wrote (tasks : List Task) (d d' : Disk) : Prop where
  left : ∃ performed, performed.Perm tasks ∧ Left performed d d'
  done : ∀ t ∈ tasks, t.Done d'
  sound : d.Sound → d'.Sound

theorem Wrote.grows {tasks : List Task} {d d' : Disk} (h : Wrote tasks d d') : d.Grows d' := by
  obtain ⟨_, -, hleft⟩ := h.left
  exact hleft.grows

theorem run_writeRoutingModule (plan : Plan) (p : Progress σ) : plan.writeRoutingModule.run p =
    match plan.renderer.routes (.ofSpec plan.config.iconPackage plan.spec) with
    | .error fault => (.error (.render fault), p)
    | .ok source =>
      match ((plan.routingTasks source).forM Task.perform).run p.workspace.disk with
      | (.error e, d) => (.error (.file e), p.withDisk d)
      | (.ok (), d) => (.ok (), { p.withDisk d with links := plan.table.links, files := p.files + 1 }) := by
  unfold writeRoutingModule
  dsimp only
  cases plan.renderer.routes (.ofSpec plan.config.iconPackage plan.spec) with
  | error fault => exact run_bind_of_error (Run.run_orFail_error .render fault p)
  | ok source =>
      rw [run_bind_of_ok (Run.run_orFail_ok .render source p), Filing.writeWithParents_eq, ← routingTasks]
      have hfiling := Run.run_filing ((plan.routingTasks source).forM Task.perform) p
      dsimp only
      cases hrun : ((plan.routingTasks source).forM Task.perform).run p.workspace.disk with
      | mk result d =>
          rw [hrun] at hfiling
          cases result with
          | error e => exact run_bind_of_error hfiling
          | ok => exact (run_bind_of_ok hfiling).trans rfl

theorem run_writeRoutingModule_ok {plan : Plan} {p : Progress σ} (h : (plan.writeRoutingModule.run p).1 = .ok ()) :
    ∃ source d, plan.renderer.routes (.ofSpec plan.config.iconPackage plan.spec) = .ok source ∧
      ((plan.routingTasks source).forM Task.perform).run p.workspace.disk = (.ok (), d) ∧
      plan.writeRoutingModule.run p =
        (.ok (), { p.withDisk d with links := plan.table.links, files := p.files + 1 }) := by
  rw [run_writeRoutingModule] at h ⊢
  cases hsource : plan.renderer.routes (.ofSpec plan.config.iconPackage plan.spec) with
  | error fault =>
      rw [hsource] at h
      cases h
  | ok source =>
      rw [hsource] at h
      dsimp only at h ⊢
      rcases hrun : ((plan.routingTasks source).forM Task.perform).run p.workspace.disk with ⟨e | ⟨⟩, d⟩
      · rw [hrun] at h
        cases h
      · exact ⟨source, d, rfl, hrun, rfl⟩

/-- **A stage that writes succeeds if its tasks do**, one behind the other. -/
theorem run_perform_of_tasks (runner : Runner σ) {stage : Stage} {tasks : List Task}
    (h : plan.tasks? stage = some tasks) {p : Progress σ}
    {d : Disk} (hrun : (tasks.forM Task.perform).run p.workspace.disk = (.ok (), d)) :
    ∃ p', (plan.perform libs runner stage).run p = (.ok (), p') ∧ p'.workspace.disk = d := by
  have hwrite : ∀ g : Groups, tasks = (g.under plan.request.directory).tasks →
      (plan.writeGroups g).run p = (.ok (), { p.withDisk d with files := p.files + g.count }) := by
    rintro g rfl
    have hfiling := Run.run_filing (g.write plan.request.directory) p
    have hgroups : (g.write plan.request.directory).run p.workspace.disk = (.ok g.count, d) := by
      have hmap : (g.tasks.map (Task.under plan.request.directory)).forM Task.perform =
          g.tasks.forM fun task => (task.under plan.request.directory).perform := List.forM_map
      rw [Groups.tasks_under, hmap] at hrun
      exact run_bind_eq_ok.mpr ⟨(), d, hrun, rfl⟩
    rw [hgroups] at hfiling
    exact run_bind_of_ok hfiling
  rcases tasks?_cases h with ⟨hstage, htasks⟩ | ⟨hstage, g, hg, htasks⟩ | ⟨hstage, source, hsource, htasks⟩
  · rw [hstage]
    exact ⟨_, hwrite ProjectFiles.groups htasks, rfl⟩
  · rw [hstage, perform, writeComponents, hg, run_bind_of_ok (Run.run_orFail_ok .render g p), hwrite g htasks]
    exact ⟨_, rfl, rfl⟩
  · rw [htasks] at hrun
    rw [hstage, perform, run_writeRoutingModule, hsource]
    dsimp only
    rw [hrun]
    exact ⟨_, rfl, rfl⟩

theorem Writes.wrote {g : Groups} {p p' : Progress σ} {result : Except RunError Unit} (h : plan.Writes g p result p')
    (hr : result = .ok ()) :
    Wrote (g.under plan.request.directory).tasks p.workspace.disk p'.workspace.disk := by
  cases h with
  | ok h => exact ⟨h.left.2, h.done, h.sound⟩
  | error => cases hr

theorem Writes.again {g : Groups} {p p' : Progress σ} {result : Except RunError Unit} (h : plan.Writes g p result p')
    {e : Disk} (hd : ∀ t ∈ (g.under plan.request.directory).tasks, t.Done e) (hf : e.Fits p.workspace.disk) :
    result = .ok () ∧ e.Fits p'.workspace.disk := by
  cases h with
  | ok h => exact ⟨rfl, (h.again hd hf).2⟩
  | error h => cases (h.again hd hf).1

theorem Writes.filed {g : Groups} {p p' : Progress σ} {result : Except RunError Unit} (h : plan.Writes g p result p') :
    p.Filed p' := by
  cases h with
  | ok => exact ⟨rfl, rfl, rfl⟩
  | error => exact ⟨rfl, rfl, rfl⟩

theorem filesOnly_writeRoutingModule (plan : Plan) :
    Run.FilesOnly (plan.writeRoutingModule : Run σ Unit) :=
  .bind (.orFail _ _) fun _ => .bind (.filing _) fun _ => .bind (fun _ => ⟨rfl, rfl, rfl⟩) fun _ => .countFiles 1

section Writing

variable {stage : Stage} (hs : stage ∈ writing) {p p' : Progress σ} {result : Except RunError Unit}

include hs

/-- **A stage that writes and succeeds** has performed its tasks. -/
theorem Performs.wrote (h : plan.Performs libs runner p stage result p') (hr : result = .ok ()) :
    ∃ tasks, plan.tasks? stage = some tasks ∧ Wrote tasks p.workspace.disk p'.workspace.disk := by
  cases h with
  | projectFiles h => exact ⟨_, rfl, h.wrote hr⟩
  | components hg h =>
      refine ⟨_, ?_, h.wrote hr⟩
      rw [tasks?, hg]
      rfl
  | notRendered => cases hr
  | other hp hc =>
      obtain rfl := ((mem_writing.mp hs).resolve_left hp).resolve_left hc
      rw [perform] at hr ⊢
      obtain ⟨source, d, hsource, hrun, hafter⟩ := run_writeRoutingModule_ok hr
      obtain ⟨hleft, hdone⟩ := left_forM hrun
      have hkeeps : Filing.KeepsSound ((plan.routingTasks source).forM Task.perform) :=
        .forM fun t _ => Task.keepsSound_perform t
      rw [hafter]
      refine ⟨plan.routingTasks source, by rw [tasks?, hsource]; rfl, ⟨_, .refl _, hleft⟩, hdone, fun hd => ?_⟩
      have hsound := hkeeps _ hd
      rw [hrun] at hsound
      exact hsound

/-- **A stage whose tasks are done succeeds again**, on a disk that fits. -/
theorem Performs.again (h : plan.Performs libs runner p stage result p') {tasks : List Task}
    (ht : plan.tasks? stage = some tasks) {e : Disk} (hd : ∀ t ∈ tasks, t.Done e) (hf : e.Fits p.workspace.disk) :
    result = .ok () ∧ e.Fits p'.workspace.disk := by
  cases h with
  | projectFiles h =>
      rw [← Option.some_inj.mp ht] at hd
      exact h.again hd hf
  | components hg h =>
      rw [tasks?, hg] at ht
      rw [← Option.some_inj.mp ht] at hd
      exact h.again hd hf
  | notRendered hg =>
      rw [tasks?, hg] at ht
      cases ht
  | other hp hc =>
      obtain rfl := ((mem_writing.mp hs).resolve_left hp).resolve_left hc
      rw [perform, plan.run_writeRoutingModule p]
      cases hsource : plan.renderer.routes (.ofSpec plan.config.iconPackage plan.spec) with
      | error fault =>
          rw [tasks?, hsource] at ht
          cases ht
      | ok source =>
          obtain rfl : plan.routingTasks source = tasks := by
            rw [tasks?, hsource] at ht
            exact Option.some_inj.mp ht
          obtain ⟨d, hrun, hfits⟩ := forM_of_done hd hf
          dsimp only
          rw [hrun]
          exact ⟨rfl, hfits⟩

end Writing

/-! ## 3. Directories that are made -/

theorem filesOnly_makeDirectory (plan : Plan) (directory : String) :
    Run.FilesOnly (plan.makeDirectory directory : Run σ Unit) := by
  unfold makeDirectory
  cases Path.below? plan.request.sources directory with
  | none => exact .throw _
  | some path => exact .bind (.filing _) fun _ => .countFiles _

section Directories

variable {p p' : Progress σ}

/-- A directory that was made is below the sources, and has been tracked. -/
theorem makeDirectory_ok {directory : String} (h : (plan.makeDirectory directory).run p = (.ok (), p')) :
    ∃ path made d, Path.below? plan.request.sources directory = some path ∧
      (Filing.ensureTracked path).run p.workspace.disk = (.ok made, d) ∧
      p' = { p.withDisk d with files := p.files + if made then 1 else 0 } := by
  unfold makeDirectory at h
  cases hbelow : Path.below? plan.request.sources directory with
  | none =>
      rw [hbelow] at h
      cases h
  | some path =>
      rw [hbelow] at h
      obtain ⟨made, q, hfiling, hcount⟩ := run_bind_eq_ok.mp h
      rw [Run.run_filing] at hfiling
      rcases htracked : (Filing.ensureTracked path).run p.workspace.disk with ⟨e | made', d⟩
      · rw [htracked] at hfiling
        cases hfiling
      · rw [htracked] at hfiling
        cases hfiling
        cases hcount
        exact ⟨path, made, d, rfl, htracked, rfl⟩

/-- A directory that is tracked is left as it is. -/
theorem makeDirectory_of_isTracked {directory path : String}
    (hbelow : Path.below? plan.request.sources directory = some path) (h : p.workspace.disk.IsTracked path) :
    (plan.makeDirectory directory).run p = (.ok (), p) := by
  have hfiling := Run.run_filing (Filing.ensureTracked path) p
  rw [Filing.ensureTracked_of_isTracked h] at hfiling
  unfold makeDirectory
  rw [hbelow]
  exact (run_bind_of_ok hfiling).trans rfl

/-- The paths of directories below the sources. -/
def pathsOf (plan : Plan) (directories : List String) : List String :=
  directories.filterMap (Path.below? plan.request.sources)

/-- Each of some directories is below the sources, and tracked. -/
def AllTracked (plan : Plan) (directories : List String) (d : Disk) : Prop :=
  ∀ directory ∈ directories, ∃ path, Path.below? plan.request.sources directory = some path ∧ d.IsTracked path

/-- **Directories that were made one after the other** are all tracked, and what is counted is what they have added. -/
theorem equips_makeDirectories {directories : List String}
    (h : (directories.forM plan.makeDirectory).run p = (.ok (), p')) : ∃ n,
    p' = { p.withDisk p'.workspace.disk with files := p.files + n } ∧
    Equips (plan.pathsOf directories) p.workspace.disk p'.workspace.disk n ∧
    plan.AllTracked directories p'.workspace.disk := by
  induction directories generalizing p with
  | nil =>
      cases h
      exact ⟨0, rfl, .refl _ _, List.forall_mem_nil _⟩
  | cons directory rest ih =>
      obtain ⟨⟨⟩, q, hfirst, hrest⟩ := run_bind_eq_ok.mp (h : (plan.makeDirectory directory >>= fun _ =>
        rest.forM plan.makeDirectory).run p = (.ok (), p'))
      obtain ⟨path, made, d, hbelow, htracked, rfl⟩ := makeDirectory_ok hfirst
      obtain ⟨n, hp', hequips, hall⟩ := ih hrest
      have hpaths : plan.pathsOf (directory :: rest) = path :: plan.pathsOf rest := List.filterMap_cons_some hbelow
      have hone : Equips (plan.pathsOf (directory :: rest)) p.workspace.disk d (if made then 1 else 0) :=
        (Filing.equips_ensureTracked htracked).mono (by simp [hpaths])
      have hothers : Equips (plan.pathsOf (directory :: rest)) d p'.workspace.disk n :=
        hequips.mono (by simp [hpaths])
      refine ⟨(if made then 1 else 0) + n, ?_, hone.trans hothers, List.forall_mem_cons.mpr ⟨⟨path, hbelow, ?_⟩, hall⟩⟩
      · rw [← Nat.add_assoc]
        exact hp'
      · exact (Filing.isTracked_of_ensureTracked htracked).grows hothers.grows

/-- **Directories that are tracked are left as they are**, and nothing is counted. -/
theorem makeDirectories_of_isTracked {directories : List String} (h : plan.AllTracked directories p.workspace.disk) :
    (directories.forM plan.makeDirectory).run p = (.ok (), p) := by
  induction directories with
  | nil => rfl
  | cons directory rest ih =>
      obtain ⟨⟨path, hbelow, htracked⟩, hrest⟩ := List.forall_mem_cons.mp h
      exact (run_bind_of_ok (makeDirectory_of_isTracked hbelow htracked)).trans (ih hrest)

/-- **Making directories changes nothing but on their ways and right in them**, up to the first that fails. -/
theorem furnishes_makeDirectories (plan : Plan) (directories : List String) (p : Progress σ) :
    Furnishes (plan.pathsOf directories) p.workspace.disk
      ((directories.forM plan.makeDirectory).run p).2.workspace.disk := by
  induction directories generalizing p with
  | nil => exact .refl _ _
  | cons directory rest ih =>
      have hcons : (directory :: rest).forM (plan.makeDirectory : String → Run σ Unit) =
          plan.makeDirectory directory >>= fun _ => rest.forM plan.makeDirectory := rfl
      have hfirst : Furnishes (plan.pathsOf (directory :: rest)) p.workspace.disk
          ((plan.makeDirectory directory).run p).2.workspace.disk := by
        unfold makeDirectory
        cases hbelow : Path.below? plan.request.sources directory with
        | none => exact .refl _ _
        | some path =>
            have hpaths : plan.pathsOf (directory :: rest) = path :: plan.pathsOf rest :=
              List.filterMap_cons_some hbelow
            have hfiling := Run.run_filing (Filing.ensureTracked path) p
            have hone : Furnishes (plan.pathsOf (directory :: rest)) p.workspace.disk
                ((Filing.ensureTracked path).run p.workspace.disk).2 :=
              (Filing.furnishes_ensureTracked path p.workspace.disk).mono (by simp [hpaths])
            rcases hrun : (Filing.ensureTracked path).run p.workspace.disk with ⟨e | kept, d⟩
            · rw [hrun] at hfiling hone
              dsimp only
              rw [run_bind_of_error hfiling]
              exact hone
            · rw [hrun] at hfiling hone
              dsimp only
              rw [run_bind_of_ok hfiling]
              exact hone
      have hsub : plan.pathsOf rest ⊆ plan.pathsOf (directory :: rest) := by
        unfold pathsOf
        rw [List.filterMap_cons]
        split
        · exact List.Subset.refl _
        · exact List.subset_cons_self _ _
      rw [hcons]
      rcases hrun : (plan.makeDirectory directory).run p with ⟨e | ⟨⟩, q⟩
      · rw [hrun] at hfirst
        rw [run_bind_of_error hrun]
        exact hfirst
      · rw [hrun] at hfirst
        rw [run_bind_of_ok hrun]
        exact hfirst.trans ((ih q).mono hsub)

end Directories

/-! ## 4. What is changed -/

/-- **What a stage that works on files may leave on a disk**, where it has been something else: removed files of the
    sources, what the tasks of the stage leave, or directories and files that keep them where nothing has been. -/
def MayLeave (plan : Plan) (patterns : PatternEngine) (d : Disk) : Stage → Place → Option Entry → Prop
  | .cleanup, x, e => e = none ∧ ∃ fits name content, patterns.compile plan.config.cleanup = .ok fits ∧
    fits name = true ∧ x = target d.here plan.request.sources ++ [name] ∧ d.entry? x = some (.file content)
  | .directories, x, e => d.entry? x = none ∧ ∃ path ∈ plan.pathsOf plan.config.directories,
    x ∈ way d.here path ∧ e = some .directory ∨ x = target d.here path ++ [keeper] ∧ e = some (.file .empty)
  | stage, x, e => ∃ tasks, plan.tasks? stage = some tasks ∧ Leaving d.here tasks x e

/-- What a stage that works on files has done when it has succeeded: the unwanted files are gone, the tasks are
    performed, or the directories are tracked. -/
def HasDone (plan : Plan) (patterns : PatternEngine) (d d' : Disk) : Stage → Prop
  | .cleanup => ∃ fits, patterns.compile plan.config.cleanup = .ok fits ∧
    Cleared (target d.here plan.request.sources) fits d d'
  | .directories => plan.AllTracked plan.config.directories d'
  | stage => ∃ tasks, plan.tasks? stage = some tasks ∧ Wrote tasks d d'

theorem Writes.changes {g : Groups} {p p' : Progress σ} {result : Except RunError Unit}
    (h : plan.Writes g p result p') :
    Changes (Leaving p.workspace.disk.here (g.under plan.request.directory).tasks) p.workspace.disk
      p'.workspace.disk := by
  cases h with
  | ok h => exact h.changes
  | error h => exact h.changes

section Changes

variable {stage : Stage} {p p' : Progress σ} {result : Except RunError Unit}

theorem changes_removeDefaults (hs : p.workspace.disk.Sound) :
    Changes (plan.MayLeave libs.patterns p.workspace.disk .cleanup) p.workspace.disk
      ((plan.removeDefaults libs.patterns).run p).2.workspace.disk := by
  cases hfits : libs.patterns.compile plan.config.cleanup with
  | error cause =>
      unfold removeDefaults
      rw [hfits]
      exact .refl _ _
  | ok fits =>
      have hchanges := Filing.changes_removeWhere hs plan.request.sources fits
      rw [run_removeDefaults hfits]
      dsimp only [Progress.withDisk]
      refine hchanges.mono fun x e hx => ?_
      obtain ⟨hnone, name, content, hname, hplace, hfile⟩ := hx
      exact ⟨hnone, fits, name, content, hfits, hname, hplace, hfile⟩

theorem changes_makeDirectories (patterns : PatternEngine) (p : Progress σ) :
    Changes (plan.MayLeave patterns p.workspace.disk .directories) p.workspace.disk
      ((plan.config.directories.forM plan.makeDirectory).run p).2.workspace.disk := by
  have hfurnishes := plan.furnishes_makeDirectories plan.config.directories p
  refine ⟨hfurnishes.stand, fun x hx => ?_⟩
  obtain ⟨hnone, path, hm, hmade⟩ := hfurnishes.changed x hx
  exact ⟨hnone, path, hm, hmade.imp_right (And.imp_right And.left)⟩

theorem changes_writeRoutingModule (patterns : PatternEngine) (p : Progress σ) :
    Changes (plan.MayLeave patterns p.workspace.disk .routingModule) p.workspace.disk
      (plan.writeRoutingModule.run p).2.workspace.disk := by
  rw [plan.run_writeRoutingModule p]
  cases hsource : plan.renderer.routes (.ofSpec plan.config.iconPackage plan.spec) with
  | error fault => exact .refl _ _
  | ok source =>
      have htasks : plan.tasks? .routingModule = some (plan.routingTasks source) := by
        rw [tasks?, hsource]
        rfl
      have hchanges := changes_forM (plan.routingTasks source) p.workspace.disk
      dsimp only
      rcases hrun : ((plan.routingTasks source).forM Task.perform).run p.workspace.disk with ⟨e | ⟨⟩, d⟩
      all_goals
        rw [hrun] at hchanges
        exact hchanges.mono fun x e hx => ⟨_, htasks, hx⟩

/-- **A stage that works on files changes nothing but what is its own to change**, also where it fails. -/
theorem Performs.changes (h : plan.Performs libs runner p stage result p') (ht : stage.tool? = none)
    (hc : stage ≠ .commit) (hs : stage = .cleanup → p.workspace.disk.Sound) :
    Changes (plan.MayLeave libs.patterns p.workspace.disk stage) p.workspace.disk p'.workspace.disk := by
  cases h with
  | projectFiles h => exact h.changes.mono fun x e hx => ⟨_, rfl, hx⟩
  | components hg h =>
      refine h.changes.mono fun x e hx => ⟨_, ?_, hx⟩
      rw [tasks?, hg]
      rfl
  | notRendered => exact .refl _ _
  | other hp hcomponents =>
      cases stage with
      | bootstrap | install | format => cases ht
      | commit => exact absurd rfl hc
      | projectFiles => exact absurd rfl hp
      | components => exact absurd rfl hcomponents
      | cleanup => exact changes_removeDefaults (hs rfl)
      | directories => exact changes_makeDirectories libs.patterns p
      | routingModule => exact changes_writeRoutingModule libs.patterns p

/-- **A stage that works on files and succeeds has done its work.** -/
theorem Performs.hasDone (h : plan.Performs libs runner p stage result p') (ht : stage.tool? = none)
    (hc : stage ≠ .commit) (hs : stage = .cleanup → p.workspace.disk.Sound) (hr : result = .ok ()) :
    plan.HasDone libs.patterns p.workspace.disk p'.workspace.disk stage := by
  cases stage with
  | bootstrap | install | format => cases ht
  | commit => exact absurd rfl hc
  | projectFiles | components | routingModule => exact h.wrote (by decide) hr
  | cleanup =>
      rw [hr] at h
      obtain ⟨fits, hfits, -, -, hcleared⟩ := h.cleared (hs rfl)
      exact ⟨fits, hfits, hcleared⟩
  | directories =>
      have hrun := h.eq_perform (by decide) (by decide)
      rw [hr] at hrun
      obtain ⟨-, -, -, hall⟩ := equips_makeDirectories hrun
      exact hall

end Changes

end Plan

end RouteScaffold
