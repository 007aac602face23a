import RouteScaffold.Proofs.Run.Work

/-!
# What stages change

Every stage changes what is its own to change, whatever it gives (`Plan.Performs.effects`).

* `Plan.run_runTool`: a tool is reported, and the workspace is what it leaves;
* `Git.Marks`: what making a repository changes on a disk; `Plan.run_commitAll`: what committing does;
* `Passage.Effects`: what each stage changes, and what it has done when it has succeeded.
-/

namespace RouteScaffold

variable {σ : Type} {plan : Plan} {libs : Libraries σ} {runner : Runner σ}

/-! ## 1. Tools -/

theorem ToolError.ofEnding?_eq_none {i : Invocation} {ending : Except SystemError Ending} :
    ofEnding? i ending = none ↔ ending = .ok (.status 0) := by
  unfold ofEnding?
  split
  · simp
  · simp
  · rename_i hne
    constructor
    · exact fun h => by cases h
    · intro h
      cases h
      exact absurd rfl hne

namespace Plan

/-- The progress behind a tool: its invocation and what it wrote are reported, and its workspace is taken over. -/
def toolRun (runner : Runner σ) (i : Invocation) (p : Progress σ) : Progress σ :=
  let run := runner p.workspace i
  { p with workspace := run.workspace, events := p.events ++ [.invoked i] ++
      (ToolRun.linesOf run.output).map .toolLine ++ (ToolRun.linesOf run.errors).map .toolError }

theorem run_runTool (runner : Runner σ) (i : Invocation) (p : Progress σ) : (runTool runner i).run p =
    ((match ToolError.ofEnding? i (runner p.workspace i).ending with
      | some e => .error (.tool e)
      | none => .ok ()), toolRun runner i p) := by
  have hget : ∀ q : Progress σ, (get : Run σ (Progress σ)).run q = (.ok q, q) := fun _ => rfl
  have hset : ∀ q q' : Progress σ, (set q' : Run σ PUnit).run q = (.ok ⟨⟩, q') := fun _ _ => rfl
  rw [runTool, run_bind_of_ok (Run.run_report _ p), run_bind_of_ok (hget _)]
  dsimp only
  rw [run_bind_of_ok (hset _ _), run_bind_of_ok (Run.run_forM_report _ _ _), run_bind_of_ok (Run.run_forM_report _ _ _)]
  cases ToolError.ofEnding? i (runner p.workspace i).ending with
  | none => rfl
  | some e => rfl

theorem perform_tool {stage : Stage} {t : ToolStage} (h : stage.tool? = some t) :
    plan.perform libs runner stage = runTool runner (plan.invocation t) := by
  cases stage with
  | bootstrap | install | format =>
      cases h
      rfl
  | cleanup | projectFiles | components | routingModule | directories | commit => cases h

theorem invoked_toolRun (runner : Runner σ) (i : Invocation) (p : Progress σ) :
    (toolRun runner i p).invoked = p.invoked ++ [i] := by
  have hlines : ∀ e ∈ (ToolRun.linesOf (runner p.workspace i).output).map Event.toolLine ++
      (ToolRun.linesOf (runner p.workspace i).errors).map Event.toolError, ∀ j, e ≠ .invoked j := by
    intro e he j
    rcases List.mem_append.mp he with he | he
    · obtain ⟨line, -, rfl⟩ := List.mem_map.mp he
      exact fun h => by cases h
    · obtain ⟨line, -, rfl⟩ := List.mem_map.mp he
      exact fun h => by cases h
  have hinvoked : ({ p with events := p.events ++ [.invoked i] } : Progress σ).invoked = p.invoked ++ [i] :=
    List.filterMap_append
  refine Eq.trans ?_ ((Progress.invoked_append _ hlines).trans hinvoked)
  simp only [toolRun, Progress.invoked, List.append_assoc]

end Plan

/-! ## 2. Repositories -/

open Disk

namespace Git

/-- What a repository at a path changes on a disk: directories are made where nothing has been, all on the way of the
    path, and the marker of the repository at its end. -/
structure Marks (path : String) (d d' : Disk) : Prop where
  stand : d'.toStandpoint = d.toStandpoint
  changed : ∀ x, d'.entry? x ≠ d.entry? x → d'.entry? x = some .directory ∧
    (x = target d.here path ++ [marker] ∨ x ∈ way d.here path ∧ d.entry? x = none)

theorem Marks.here {path : String} {d d' : Disk} (h : Marks path d d') : d'.here = d.here :=
  congrArg Standpoint.here h.stand

theorem Marks.refl (path : String) (d : Disk) : Marks path d d := ⟨rfl, fun _ hx => absurd rfl hx⟩

theorem Marks.of_adds {path : String} {d d' : Disk} (h : Adds (way d.here path) d d') : Marks path d d' where
  stand := h.stand
  changed x hx := by
    obtain ⟨hway, hnone, hmade⟩ := h.changed x hx
    exact ⟨hmade, .inr ⟨hway, hnone⟩⟩

/-- The marker that is put at the end of the path. -/
theorem Marks.put {path : String} {d d' : Disk} (h : Marks path d d') :
    Marks path d (d'.put (target d.here path ++ [marker]) .directory) where
  stand := h.stand
  changed x hx := by
    rw [entry?_put d' (List.append_ne_nil_of_right_ne_nil _ (List.cons_ne_nil _ _))] at hx ⊢
    by_cases hmarker : x = target d.here path ++ [marker]
    · rw [if_pos hmarker]
      exact ⟨rfl, .inl hmarker⟩
    · rw [if_neg hmarker] at hx ⊢
      exact h.changed x hx

namespace Workspace

theorem directory?_eq_some {d : Disk} {path : String} {place : Place} (h : directory? d path = some place) :
    place = target d.here path := by
  unfold directory? at h
  split at h
  · rename_i hfind
    cases h
    exact (leads_find hfind).1
  · cases h

section Opening

variable (lib : Library σ) (w : Workspace σ)

theorem disk_takeOver (path : String) (place : Place) (s : σ) : (w.takeOver lib path place s).1.disk = w.disk := by
  unfold takeOver
  split
  · rfl
  · rfl

/-- Opening a repository leaves the disk. -/
theorem disk_openAt (path : String) : (w.openAt lib path).1.disk = w.disk := by
  unfold openAt
  split
  · exact disk_takeOver lib w path _ _
  · rfl

end Opening

section Making

variable (lib : Library σ) (w : Workspace σ) (path : String)

/-- **Making a repository makes its directory and its marker**, also where it fails. -/
theorem marks_create (bare : Bool) : Marks path w.disk (w.create lib path bare).1.disk := by
  have hdirectories := Marks.of_adds (Filing.adds_ensureDirectory path w.disk)
  unfold create
  rcases hmade : (Filing.ensureDirectory path).run w.disk with ⟨made, disk⟩
  rw [hmade] at hdirectories
  dsimp only
  split
  · rename_i place hfound
    split
    · exact hdirectories
    · split
      · split
        · exact hdirectories
        · cases bare with
          | true => exact hdirectories
          | false =>
              rw [directory?_eq_some hfound, show disk.here = w.disk.here from hdirectories.here]
              exact hdirectories.put
      · exact hdirectories
  · exact hdirectories
  · exact hdirectories

theorem marks_initAt : Marks path w.disk (w.initAt lib path).1.disk := by
  have hmarks := marks_create lib w path false
  unfold initAt
  rcases hcreate : w.create lib path false with ⟨w₁, fault | ⟨place, s⟩⟩
  · rw [hcreate] at hmarks
    exact hmarks
  · rw [hcreate, ← disk_takeOver lib w₁ path place s] at hmarks
    exact hmarks

theorem marks_openOrInitAt : Marks path w.disk (w.openOrInitAt lib path).1.disk := by
  have hopen := disk_openAt lib w path
  unfold openOrInitAt
  rcases hopened : w.openAt lib path with ⟨w₁, e | place⟩
  · rw [hopened] at hopen
    have hmarks := marks_initAt lib w₁ path
    rw [show w₁.disk = w.disk from hopen] at hmarks
    cases e with
    | notRepository shown => exact hmarks
    | nothingToCommit | invalid | library =>
        rw [← hopen]
        exact .refl path _
  · rw [hopened] at hopen
    rw [← hopen]
    exact .refl path _

end Making

/-- To work on a repository leaves the disk. -/
theorem disk_handle {α : Type} (w : Workspace σ) (place : Place) (f : Handling σ α) :
    (w.handle place f).1.disk = w.disk := by
  unfold handle
  split
  · rfl
  · rfl

end Workspace

end Git

namespace Plan

theorem marks_commitIn (plan : Plan) (lib : Git.Library σ) (w : Git.Workspace σ) :
    Git.Marks plan.request.directory w.disk (plan.commitIn lib w).1.disk := by
  have hmarks := Git.Workspace.marks_openOrInitAt lib w plan.request.directory
  unfold commitIn
  rcases hopen : w.openOrInitAt lib plan.request.directory with ⟨w₁, e | ⟨place, made⟩⟩
  · rw [hopen] at hmarks
    exact hmarks
  have hstage : (w₁.stageAllAt lib place).1.disk = w₁.disk := Git.Workspace.disk_handle w₁ place _
  rw [hopen, ← hstage] at hmarks
  dsimp only
  rcases hstaged : w₁.stageAllAt lib place with ⟨w₂, e | ⟨⟩⟩
  · rw [hstaged] at hmarks
    exact hmarks
  have hcommit : (w₂.commitAt lib place plan.commitOptions).1.disk = w₂.disk := Git.Workspace.disk_handle w₂ place _
  rw [hstaged, ← hcommit] at hmarks
  exact hmarks

/-- What committing does: the commit is taken over, or a warning is reported when there is nothing to commit. -/
theorem run_commitAll (plan : Plan) (lib : Git.Library σ) (p : Progress σ) :
    (((plan.commitAll lib).run p).2).invoked = p.invoked ∧
    (((plan.commitAll lib).run p).2).workspace = (plan.commitIn lib p.workspace).1 ∧
    (((plan.commitAll lib).run p).1 = .ok () →
      (∃ c, (plan.commitIn lib p.workspace).2 = .ok c ∧ (((plan.commitAll lib).run p).2).commit = some c) ∨
        ∃ path, (plan.commitIn lib p.workspace).2 = .error (.nothingToCommit path) ∧
          (((plan.commitAll lib).run p).2).commit = p.commit) := by
  have hget : (get : Run σ (Progress σ)).run p = (.ok p, p) := rfl
  rw [commitAll, run_bind_of_ok hget]
  rcases plan.commitIn lib p.workspace with ⟨w, e | c⟩
  · cases e with
    | nothingToCommit path =>
        refine ⟨Progress.invoked_append { p with workspace := w } fun e he i => ?_, rfl, fun _ => .inr ⟨path, rfl, rfl⟩⟩
        rw [List.mem_singleton.mp he]
        exact fun h => by cases h
    | notRepository path => exact ⟨rfl, rfl, fun h => by cases h⟩
    | invalid message => exact ⟨rfl, rfl, fun h => by cases h⟩
    | library fault => exact ⟨rfl, rfl, fun h => by cases h⟩
  · exact ⟨rfl, rfl, fun _ => .inl ⟨c, rfl, rfl⟩⟩

end Plan

/-! ## 3. Every stage -/

/-- What a stage that was passed through has changed. -/
structure Passage.Effects (plan : Plan) (libs : Libraries σ) (runner : Runner σ) (x : Passage σ) : Prop where
  /-- A stage that a tool serves invokes the tool, which alone changes the workspace, and succeeds exactly if the tool
      ends with the status zero. -/
  tool : ∀ t, x.stage.tool? = some t →
    x.after.workspace = (runner x.before.workspace (plan.invocation t)).workspace ∧
    x.after.invoked = x.before.invoked ++ [plan.invocation t] ∧
    (x.result = .ok () ↔ (runner x.before.workspace (plan.invocation t)).ending = .ok (.status 0))
  /-- No other stage invokes a tool. -/
  quiet : x.stage.tool? = none → x.after.invoked = x.before.invoked
  /-- Of these only the last works on the repositories, -/
  repository : x.stage.tool? = none → x.stage ≠ .commit → x.after.workspace.store = x.before.workspace.store
  /-- and none but the last has a commit to tell of. -/
  uncommitted : x.stage ≠ .commit → x.after.commit = x.before.commit
  /-- The others change nothing on the disk but what is their own to change, also where they fail, -/
  changes : x.stage.tool? = none → x.stage ≠ .commit → (x.stage = .cleanup → x.before.workspace.disk.Sound) →
    Changes (plan.MayLeave libs.patterns x.before.workspace.disk x.stage) x.before.workspace.disk
      x.after.workspace.disk
  /-- and have done their work when they have succeeded. -/
  work : x.stage.tool? = none → x.stage ≠ .commit → (x.stage = .cleanup → x.before.workspace.disk.Sound) →
    x.result = .ok () → plan.HasDone libs.patterns x.before.workspace.disk x.after.workspace.disk x.stage
  /-- The last makes at most a repository on the disk. -/
  marks : x.stage = .commit →
    Git.Marks plan.request.directory x.before.workspace.disk x.after.workspace.disk
  /-- Unless all layouts and views are rendered none is written. -/
  rendered : x.stage = .components →
    (∃ g, Expansion.ofSpec plan.renderer plan.spec = .ok g) ∨ x.after = x.before
  /-- That there is nothing to commit is a success without a commit. -/
  committed : x.stage = .commit → x.result = .ok () →
    (∃ c, (plan.commitIn libs.git x.before.workspace).2 = .ok c ∧ x.after.commit = some c) ∨
      ∃ path, (plan.commitIn libs.git x.before.workspace).2 = .error (.nothingToCommit path) ∧
        x.after.commit = x.before.commit

namespace Plan.Performs

variable {stage : Stage} {p p' : Progress σ} {result : Except RunError Unit}

theorem effects_of_tool {t : ToolStage} (h : plan.Performs libs runner p stage result p') (ht : stage.tool? = some t) :
    (⟨stage, p, result, p'⟩ : Passage σ).Effects plan libs runner := by
  have hcommit : stage ≠ .commit := by
    rintro rfl
    cases ht
  have hcomponents : stage ≠ .components := by
    rintro rfl
    cases ht
  have hno : ∀ {q : Prop}, stage.tool? = none → q := fun hq => by
    rw [ht] at hq
    cases hq
  have hrun := h.eq_perform (by rintro rfl; cases ht) hcomponents
  rw [perform_tool ht, run_runTool] at hrun
  cases hrun
  refine ⟨fun t' ht' => ?_, hno, hno, fun _ => rfl, hno, hno, fun he => absurd he hcommit,
    fun he => absurd he hcomponents, fun he => absurd he hcommit⟩
  obtain rfl : t = t' := Option.some_inj.mp (ht.symm.trans ht')
  refine ⟨rfl, invoked_toolRun _ _ _, ?_⟩
  rw [← ToolError.ofEnding?_eq_none]
  cases ToolError.ofEnding? (plan.invocation t) (runner p.workspace (plan.invocation t)).ending with
  | none => exact ⟨fun _ => rfl, fun _ => rfl⟩
  | some e => exact ⟨fun h => (by cases h), fun h => (by cases h)⟩

/-- A stage that works on files works on files only. -/
theorem filed (h : plan.Performs libs runner p stage result p') (ht : stage.tool? = none) (hc : stage ≠ .commit) :
    p.Filed p' := by
  cases h with
  | projectFiles h => exact h.filed
  | components hg h => exact h.filed
  | notRendered => exact .refl p
  | other hp hcomponents =>
      cases stage with
      | bootstrap | install | format => cases ht
      | commit => exact absurd rfl hc
      | projectFiles => exact absurd rfl hp
      | components => exact absurd rfl hcomponents
      | cleanup => exact plan.filesOnly_removeDefaults libs.patterns p
      | routingModule => exact plan.filesOnly_writeRoutingModule p
      | directories => exact Run.FilesOnly.forM plan.filesOnly_makeDirectory p

/-- Where not all is rendered nothing is done. -/
theorem rendered (h : plan.Performs libs runner p stage result p') (hs : stage = .components) :
    (∃ g, Expansion.ofSpec plan.renderer plan.spec = .ok g) ∨ p' = p := by
  cases h with
  | projectFiles => cases hs
  | components hg => exact .inl ⟨_, hg⟩
  | notRendered => exact .inr rfl
  | other _ hc => exact absurd hs hc

/-- **Every stage changes what is its own to change**, whatever it gives. -/
theorem effects (h : plan.Performs libs runner p stage result p') :
    (⟨stage, p, result, p'⟩ : Passage σ).Effects plan libs runner := by
  cases ht : stage.tool? with
  | some t => exact h.effects_of_tool ht
  | none =>
      have hno : ∀ t, stage.tool? ≠ some t := fun t ht' => by
        rw [ht] at ht'
        cases ht'
      by_cases hc : stage = .commit
      · subst hc
        have hrun := h.eq_perform (by decide) (by decide)
        obtain ⟨hinvoked, hworkspace, hcommit⟩ := plan.run_commitAll libs.git p
        have hmarks := plan.marks_commitIn libs.git p.workspace
        rw [← hworkspace] at hmarks
        rw [perform] at hrun
        rw [hrun] at hinvoked hcommit hmarks
        exact ⟨fun t ht' => absurd ht' (hno t), fun _ => hinvoked, fun _ hs => absurd rfl hs, fun hs => absurd rfl hs,
          fun _ hs => absurd rfl hs, fun _ hs => absurd rfl hs, fun _ => hmarks, fun hs => (by cases hs),
            fun _ => hcommit⟩
      · have hfiled := h.filed ht hc
        exact ⟨fun t ht' => absurd ht' (hno t), fun _ => hfiled.invoked, fun _ _ => hfiled.store,
          fun _ => hfiled.commit, h.changes, h.hasDone, fun hs => absurd hs hc, h.rendered, fun hs => absurd hs hc⟩

end Plan.Performs

end RouteScaffold
