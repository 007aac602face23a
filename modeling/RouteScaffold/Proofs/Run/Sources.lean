import RouteScaffold.Proofs.Run.Parts
import RouteScaffold.Proofs.Run.Work
import RouteScaffold.Proofs.Run.WrittenPaths

/-!
# Work in the sources

Directories are made below the sources of the project, which the stages before have made.

* `Plan.run_makeDirectories`: making the directories of a configuration, which fails only as file operations do;
* `Plan.Course.hasRoot_at_directories`: in every course of a run the sources are there when directories are made.
-/

namespace RouteScaffold

open Disk

variable {σ : Type} {plan : Plan} {libs : Libraries σ} {runner : Runner σ}

/-! ## 1. The sources -/

theorem Request.hasRoot_sources {r : Request} {d : Disk} (h : d.isDirectory r.sources = true) :
    d.HasRoot r.sources := by
  have hway := (makes_of_isDirectory h).made
  refine ⟨hway _ ?_, hway⟩
  have hsrc : Path.Plain "src" := by decide
  rw [Request.sources, target_plain hsrc, way_join hsrc.isAbsolute]
  exact List.mem_append_right _ List.mem_cons_self

theorem Request.target_sources (r : Request) (here : Place) :
    target here r.sources = target here r.directory ++ ["src"] := by
  rw [sources, target_plain (by decide)]
  rfl

/-- With the sources the directory of the project is there. -/
theorem Request.hasRoot_directory {r : Request} {d : Disk} (hd : d.Sound) (h : d.isDirectory r.sources = true) :
    d.HasRoot r.directory := by
  have hsources := hasRoot_sources h
  constructor
  · refine hd.inside _ "src" ?_
    rw [← target_sources, hsources.target]
    rfl
  · intro x hx
    refine hsources.way x ?_
    rw [sources, way_join (by decide)]
    exact List.mem_append_left _ hx

namespace Plan

/-! ## 2. Making directories -/

/-- A directory below the sources leads below them. -/
theorem leadsBelow {r : Request} {d : Disk} (hs : d.HasRoot r.sources) {directory : String}
    (h : Path.isAbsolute directory = false ∧ .parent ∉ Path.components directory) :
    d.LeadsBelow (target d.here r.sources) (Path.join r.sources directory) := by
  obtain ⟨habsolute, hparent⟩ := h
  have hnames := Path.steps_names hparent
  constructor
  · rw [target_join habsolute, placeFrom_names hnames]
    exact List.prefix_append _ _
  · rw [way_join habsolute]
    intro x hx
    exact (List.mem_append.mp hx).imp (hs.way x) (below_entered hnames)

/-- **Making the directories of a configuration** is to make tracked directories below the sources. -/
theorem run_makeDirectories {directories : List String}
    (h : ∀ directory ∈ directories, Path.isAbsolute directory = false ∧ .parent ∉ Path.components directory)
    (p : Progress σ) : ∃ n, (directories.forM plan.makeDirectory).run p =
      (((Filing.ensureAllTracked (directories.map (Path.join plan.request.sources))).run
        p.workspace.disk).1.mapError .file,
        { p.withDisk ((Filing.ensureAllTracked (directories.map (Path.join plan.request.sources))).run
            p.workspace.disk).2 with files := p.files + n }) := by
  induction directories generalizing p with
  | nil => exact ⟨0, rfl⟩
  | cons directory rest ih =>
      rw [List.forall_mem_cons] at h
      have hbelow : Path.below? plan.request.sources directory = some (Path.join plan.request.sources directory) :=
        Path.below?_eq_some_iff.mpr ⟨h.1, rfl⟩
      have hfiling := Run.run_filing (Filing.ensureTracked (Path.join plan.request.sources directory)) p
      have hcons : (directory :: rest).forM (plan.makeDirectory : String → Run σ Unit) =
          plan.makeDirectory directory >>= fun _ => rest.forM plan.makeDirectory := rfl
      rw [hcons, List.map_cons, Filing.ensureAllTracked]
      have hmake : (plan.makeDirectory directory : Run σ Unit) =
          Run.filing (Filing.ensureTracked (Path.join plan.request.sources directory)) >>= fun kept =>
            Run.countFiles (if kept then 1 else 0) := by
        unfold makeDirectory
        rw [hbelow]
      rw [hmake, bind_assoc]
      rcases hrun : (Filing.ensureTracked (Path.join plan.request.sources directory)).run p.workspace.disk with
        ⟨e | kept, d⟩
      · rw [hrun] at hfiling
        rw [run_bind_of_error hfiling, run_bind_of_error hrun]
        exact ⟨0, rfl⟩
      · rw [hrun] at hfiling
        have hcount : (Run.countFiles (if kept then 1 else 0)).run (p.withDisk d) =
            (.ok (), { p.withDisk d with files := p.files + if kept then 1 else 0 }) := rfl
        obtain ⟨n, hn⟩ := ih h.2 { p.withDisk d with files := p.files + if kept then 1 else 0 }
        rw [run_bind_of_ok hfiling, run_bind_of_ok hcount, run_bind_of_ok hrun, hn]
        exact ⟨(if kept then 1 else 0) + n, by rw [← Nat.add_assoc]; rfl⟩

/-! ## 3. Courses -/

/-- The sources are made by the first of the stages that write. -/
theorem makeDirectory_mem_tasks (plan : Plan) :
    .makeDirectory plan.request.sources ∈ (ProjectFiles.groups.under plan.request.directory).tasks := by
  have hparent : (Path.parent? "src/App.js").getD "" = "src" := by decide
  have hmem : Task.makeDirectory ((Path.parent? "src/App.js").getD "") ∈ ProjectFiles.groups.tasks :=
    ProjectFiles.mem_tasks_plan.mpr ⟨("src/App.js", ProjectFiles.app), List.mem_cons_self, .inl rfl⟩
  rw [hparent] at hmem
  rw [Groups.tasks_under]
  exact List.mem_map.mpr ⟨_, hmem, rfl⟩

/-- The stages that write leave the sources behind. -/
theorem Course.isDirectory_sources {p p' : Progress σ} {passages : List (Passage σ)}
    (h : plan.Course libs runner writing p passages (.ok ()) p') :
    p'.workspace.disk.isDirectory plan.request.sources = true := by
  obtain ⟨p₁, _, hfiles, hmore⟩ := h.cons_ok
  obtain ⟨p₂, _, hcomponents, hmore⟩ := hmore.cons_ok
  obtain ⟨p₃, _, hrouting, hend⟩ := hmore.cons_ok
  cases hend
  obtain ⟨tasks, htasks, hwrote⟩ := hfiles.wrote (by decide) rfl
  obtain ⟨_, -, hwrote'⟩ := hcomponents.wrote (by decide) rfl
  obtain ⟨_, -, hwrote''⟩ := hrouting.wrote (by decide) rfl
  rw [← Option.some_inj.mp htasks] at hwrote
  have hdone := hwrote.done _ plan.makeDirectory_mem_tasks
  exact ((hdone.grows hwrote'.grows).grows hwrote''.grows).resolve_left (plan.request.sources_ne_empty)

/-- **The sources are there when the directories are made.** -/
theorem Course.hasRoot_at_directories {p p' : Progress σ} {passages : List (Passage σ)} {result : Except RunError Unit}
    (h : plan.Course libs runner plan.stages p passages result p') {x : Passage σ} (hx : x ∈ passages)
    (hs : x.stage = .directories) : x.before.workspace.disk.HasRoot plan.request.sources ∧
      (plan.perform libs runner .directories).run x.before = (x.result, x.after) := by
  obtain ⟨front, back, hfront, hback, hstages⟩ := plan.stages_around
  rw [hstages] at h
  obtain ⟨q, first, hfirst, hbefore, hperforms⟩ := h.arrives (by simp [hfront, writing]) hback hx hs
  obtain ⟨_, _, _, -, hwriting⟩ := hfirst.append_ok
  refine ⟨?_, ?_⟩
  · rw [hbefore]
    exact Request.hasRoot_sources hwriting.isDirectory_sources
  · exact hperforms.eq_perform (by decide) (by decide)

end Plan

end RouteScaffold
