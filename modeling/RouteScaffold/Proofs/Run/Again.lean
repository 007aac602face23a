import RouteScaffold.Proofs.Run.Made
import RouteScaffold.Proofs.Run.Unhindered

/-!
# Running again

A run into a project that is there can be repeated: what it removes it has written itself, what it writes it writes
again, and the directories that it would keep with a file hold something already.

* `Plan.Course.made`: what a run that succeeds has made, with tools that change nothing;
* `Plan.Course.again`: on such a disk every course through its stages succeeds and leaves what is there;
* `Request.run_again`: so a run behind a run does, if what it reads lies outside of the project.
-/

namespace RouteScaffold

open Disk

variable {σ : Type} {plan : Plan} {libs : Libraries σ} {runner : Runner σ}

namespace Plan

/-! ## 1. Stage by stage -/

section Performs

variable {stage : Stage} {p p' : Progress σ} {result : Except RunError Unit}
    (h : plan.Performs libs runner p stage result p')

include h

/-- **The links of a run are those of its routes**, from the stage on that writes these. -/
theorem Performs.links (hc : plan.config.check libs.patterns = .ok plan.config) (hs : stage ≠ .commit)
    (hr : result = .ok ()) :
    p'.links = if stage = .routingModule then plan.table.links else p.links := by
  cases h with
  | projectFiles h =>
      cases h with
      | ok => rfl
      | error => rfl
  | components hg h =>
      cases h with
      | ok => rfl
      | error => rfl
  | notRendered => cases hr
  | other hp hm =>
      cases stage with
      | projectFiles => exact absurd rfl hp
      | components => exact absurd rfl hm
      | commit => exact absurd rfl hs
      | bootstrap | install | format =>
          rw [perform_tool rfl, run_runTool]
          rfl
      | cleanup =>
          rw [perform]
          cases hfits : libs.patterns.compile plan.config.cleanup with
          | error cause =>
              unfold removeDefaults
              rw [hfits]
              rfl
          | ok fits =>
              rw [run_removeDefaults hfits]
              rfl
      | directories =>
          obtain ⟨n, hrun⟩ := plan.run_makeDirectories (fun directory hd => Config.plain_directory hc hd) p
          rw [perform, hrun]
          rfl
      | routingModule =>
          rw [perform] at hr ⊢
          obtain ⟨source, d, -, -, hafter⟩ := run_writeRoutingModule_ok hr
          rw [hafter]
          rfl

end Performs

section Directories

variable {p p' : Progress σ} {result : Except RunError Unit} (h : plan.Performs libs runner p .directories result p')
  (hc : plan.config.check libs.patterns = .ok plan.config)

include h hc

/-- A stage that makes directories and succeeds, if the sources are there. -/
theorem Performs.supplied (hr : result = .ok ()) (hs : p.workspace.disk.HasRoot plan.request.sources) :
    Supplies (target p.workspace.disk.here plan.request.sources) p.workspace.disk p'.workspace.disk ∧
      (p.workspace.disk.Sound → p'.workspace.disk.Sound) ∧
      ∀ directory ∈ plan.config.directories,
        p'.workspace.disk.IsTracked (Path.join plan.request.sources directory) := by
  have hrun := h.eq_perform (by decide) (by decide)
  obtain ⟨n, hmake⟩ := plan.run_makeDirectories (fun directory hd => Config.plain_directory hc hd) p
  rw [perform, hmake] at hrun
  have hleads : ∀ path ∈ plan.config.directories.map (Path.join plan.request.sources),
      p.workspace.disk.LeadsBelow (target p.workspace.disk.here plan.request.sources) path :=
    List.forall_mem_map.mpr fun directory hm => leadsBelow hs (Config.plain_directory hc hm)
  have hsupplies := Filing.supplies_ensureAllTracked hleads
  have hsound := Filing.keepsSound_ensureAllTracked (plan.config.directories.map (Path.join plan.request.sources))
    p.workspace.disk
  rcases hall : (Filing.ensureAllTracked (plan.config.directories.map (Path.join plan.request.sources))).run
    p.workspace.disk with ⟨e | ⟨⟩, d⟩
  · rw [hall] at hrun
    cases hrun
    cases hr
  · rw [hall] at hrun hsupplies hsound
    cases hrun
    refine ⟨hsupplies, hsound, fun directory hd => ?_⟩
    exact Filing.isTracked_of_ensureAllTracked hleads hall _ (List.mem_map_of_mem hd)

/-- A stage that makes directories leaves them as they are if they hold something. -/
theorem Performs.supplied_again
    (ht : ∀ directory ∈ plan.config.directories,
      p.workspace.disk.IsTracked (Path.join plan.request.sources directory)) :
    result = .ok () ∧ p'.workspace.disk = p.workspace.disk := by
  have hrun := h.eq_perform (by decide) (by decide)
  obtain ⟨n, hmake⟩ := plan.run_makeDirectories (fun directory hd => Config.plain_directory hc hd) p
  have hall : (Filing.ensureAllTracked (plan.config.directories.map (Path.join plan.request.sources))).run
      p.workspace.disk = (.ok (), p.workspace.disk) :=
    Filing.ensureAllTracked_of_isTracked (List.forall_mem_map.mpr ht)
  rw [perform, hmake, hall] at hrun
  cases hrun
  exact ⟨rfl, rfl⟩

end Directories

/-! ## 2. Courses -/

namespace Course

variable {stages rest : List Stage} {p p' : Progress σ} {passages : List (Passage σ)} {result : Except RunError Unit}

/-- A course goes through a stage that can only succeed. -/
theorem step {stage : Stage} (h : plan.Course libs runner (stage :: rest) p passages result p')
    (hs : ∀ {result p₁}, plan.Performs libs runner (announced stage p) stage result p₁ → result = .ok ()) : ∃ p₁ more,
      plan.Performs libs runner (announced stage p) stage (.ok ()) p₁ ∧
        plan.Course libs runner rest p₁ more result p' := by
  cases h with
  | passed hperforms hmore => exact ⟨_, _, hperforms, hmore⟩
  | failed hperforms => cases hs hperforms

theorem links (h : plan.Course libs runner stages p passages (.ok ()) p')
    (hc : plan.config.check libs.patterns = .ok plan.config)
    (hs : .commit ∉ stages) : p'.links = if .routingModule ∈ stages then plan.table.links else p.links := by
  induction stages generalizing p passages with
  | nil =>
      cases h
      rfl
  | cons stage rest ih =>
      rw [List.mem_cons, not_or] at hs
      obtain ⟨p₁, _, hperforms, hmore⟩ := h.cons_ok
      have hfirst := hperforms.links hc (Ne.symm hs.1) rfl
      rw [ih hmore hs.2, hfirst]
      by_cases hm : .routingModule ∈ rest
      · rw [if_pos hm, if_pos (List.mem_cons_of_mem _ hm)]
      · rw [if_neg hm]
        simp only [List.mem_cons, hm, or_false, eq_comm]
        rfl

/-- With tools that change nothing only a commit touches the repositories. -/
theorem store (h : plan.Course libs runner stages p passages result p') (hr : runner.Harmless) (hs : .commit ∉ stages) :
    p'.workspace.store = p.workspace.store := by
  have hstage : ∀ {stage p p'} {result : Except RunError Unit},
    plan.Performs libs runner (announced stage p) stage result p' →
      stage ≠ .commit → p'.workspace.store = p.workspace.store := by
    intro stage p p' result hperforms hne
    cases htool : stage.tool? with
    | none => exact hperforms.effects.repository htool hne
    | some t => rw [(hperforms.harmless hr htool).2, announced_workspace]
  induction h with
  | done => rfl
  | passed hperforms _ ih =>
      rw [List.mem_cons, not_or] at hs
      rw [ih hs.2]
      exact hstage hperforms (Ne.symm hs.1)
  | failed hperforms =>
      rw [List.mem_cons, not_or] at hs
      exact hstage hperforms (Ne.symm hs.1)

/-- **Stages that write and succeed** have performed their tasks, one behind the other. -/
theorem wroteAll (h : plan.Course libs runner stages p passages (.ok ()) p') (hs : ∀ stage ∈ stages, stage ∈ writing) :
    ∃ lists, stages.map plan.tasks? = lists.map some ∧ WroteAll lists p.workspace.disk p'.workspace.disk := by
  induction stages generalizing p passages with
  | nil =>
      cases h
      exact ⟨[], rfl, .nil _⟩
  | cons stage rest ih =>
      rw [List.forall_mem_cons] at hs
      obtain ⟨p₁, _, hperforms, hmore⟩ := h.cons_ok
      obtain ⟨tasks, htasks, hwrote⟩ := hperforms.wrote hs.1 rfl
      obtain ⟨lists, hlists, hall⟩ := ih hmore hs.2
      exact ⟨tasks :: lists, by rw [List.map_cons, htasks, hlists, List.map_cons], .cons hwrote hall⟩

/-- **Stages that write succeed where their tasks are done.** -/
theorem wroteAll_again (h : plan.Course libs runner (stages ++ rest) p passages result p')
    (hs : ∀ stage ∈ stages, stage ∈ writing) {lists : List (List Task)} (hl : stages.map plan.tasks? = lists.map some)
    {e : Disk} (hd : ∀ tasks ∈ lists, ∀ t ∈ tasks, t.Done e) (hf : e.Fits p.workspace.disk) : ∃ q more,
      WroteAll lists p.workspace.disk q.workspace.disk ∧ plan.Course libs runner rest q more result p' := by
  induction stages generalizing p passages lists with
  | nil =>
      obtain rfl : lists = [] := List.map_eq_nil_iff.mp hl.symm
      exact ⟨p, passages, .nil _, h⟩
  | cons stage stages ih =>
      rw [List.forall_mem_cons] at hs
      cases lists with
      | nil => cases hl
      | cons tasks lists =>
          obtain ⟨htasks, hlists⟩ := List.cons.inj hl
          rw [List.forall_mem_cons] at hd
          obtain ⟨p₁, _, hperforms, hmore⟩ := step h fun hperforms =>
            (hperforms.again hs.1 htasks hd.1 hf).1
          obtain ⟨tasks', htasks', hwrote⟩ := hperforms.wrote hs.1 rfl
          cases Option.some_inj.mp (htasks.symm.trans htasks')
          obtain ⟨q, more, hall, hcourse⟩ := ih hmore hs.2 hlists hd.2 (hperforms.again hs.1 htasks hd.1 hf).2
          exact ⟨q, more, .cons hwrote hall, hcourse⟩

end Course

/-! ## 3. The first run and the next -/

variable (hr : runner.Harmless) (hc : plan.config.check libs.patterns = .ok plan.config) {p p' : Progress σ}
    {passages : List (Passage σ)}

include hr hc

/-- **What a run that succeeds has made.** -/
theorem Course.made (ha : plan.spec.Accepted) (hd : p.workspace.disk.Sound)
    (h : plan.Course libs runner (.install :: .cleanup :: (writing ++ [.directories, .format])) p passages
      (.ok ()) p') :
    ∃ fits lists, libs.patterns.compile plan.config.cleanup = .ok fits ∧ writing.map plan.tasks? = lists.map some ∧
      plan.Made fits lists p.workspace.disk p'.workspace.disk := by
  obtain ⟨p₁, _, hinstall, h⟩ := h.cons_ok
  obtain ⟨p₂, _, hcleanup, h⟩ := h.cons_ok
  obtain ⟨p₃, _, _, hwriting, h⟩ := h.append_ok
  obtain ⟨p₄, _, hdirectories, h⟩ := h.cons_ok
  obtain ⟨p₅, _, hformat, h⟩ := h.cons_ok
  cases h
  have hfirst : p₁.workspace = p.workspace := (hinstall.harmless hr rfl).2
  have hlast : p'.workspace = p₄.workspace := (hformat.harmless hr rfl).2
  rw [← hfirst] at hd ⊢
  rw [hlast]
  obtain ⟨pattern, hpattern, hthere, hsound, hcleared⟩ := hcleanup.cleared hd
  obtain ⟨lists, hlists, hwrote⟩ := hwriting.wroteAll fun _ hs => hs
  obtain ⟨hsupplies, hkeeps, htracked⟩ :=
    hdirectories.supplied hc rfl (Request.hasRoot_sources hwriting.isDirectory_sources)
  rw [announced_workspace] at hthere hcleared hsupplies hkeeps
  rw [hwrote.grows.here, hcleared.here] at hsupplies
  refine ⟨pattern, lists, hpattern, hlists, ⟨⟨_, _, hcleared, hwrote, hsupplies⟩, hthere, hkeeps (hwrote.sound hsound),
    ?placed, ?app, htracked⟩⟩
  case placed =>
    intro tasks hm
    have hmem : some tasks ∈ writing.map plan.tasks? := hlists ▸ List.mem_map_of_mem hm
    obtain ⟨stage, -, hstage⟩ := List.mem_map.mp hmem
    exact placement ha hstage _
  case app =>
    have hmem : some (ProjectFiles.groups.under plan.request.directory).tasks ∈ lists.map some :=
      hlists ▸ List.mem_map_of_mem (f := plan.tasks?) (a := .projectFiles) (by decide)
    obtain ⟨tasks, hm, htasks⟩ := List.mem_map.mp hmem
    refine ⟨tasks, hm, ProjectFiles.app, ?_⟩
    rw [Option.some_inj.mp htasks, Groups.tasks_under]
    refine List.mem_map.mpr ⟨.writeFile "src/App.js" ProjectFiles.app, ?_, rfl⟩
    exact ProjectFiles.mem_tasks_plan.mpr ⟨("src/App.js", ProjectFiles.app), List.mem_cons_self, .inr rfl⟩

/-- **Where a run has made all of this every course succeeds and leaves what is there.** -/
theorem Course.again {fits : String → Bool} {lists : List (List Task)} {d : Disk} {result : Except RunError Unit}
    (hp : libs.patterns.compile plan.config.cleanup = .ok fits) (hl : writing.map plan.tasks? = lists.map some)
    (hm : plan.Made fits lists d p.workspace.disk)
    (h : plan.Course libs runner (.install :: .cleanup :: (writing ++ [.directories, .format])) p passages result p') :
    result = .ok () ∧ p'.workspace.disk.toStandpoint = p.workspace.disk.toStandpoint ∧
      ∀ x, p'.workspace.disk.entry? x = p.workspace.disk.entry? x := by
  obtain ⟨p₁, _, hinstall, h⟩ := h.step fun hperforms => (hperforms.harmless hr rfl).1
  have hfirst : p₁.workspace = p.workspace := (hinstall.harmless hr rfl).2
  rw [← hfirst] at hm ⊢
  obtain ⟨p₂, _, hcleanup, h⟩ := h.step fun hperforms => hperforms.cleared_again hp hm.removable
  obtain ⟨pattern', hpattern, -, -, hcleared⟩ := hcleanup.cleared hm.sound
  cases Except.ok.inj (hp.symm.trans hpattern)
  rw [announced_workspace] at hcleared
  obtain ⟨p₃, _, hwrote, h⟩ := h.wroteAll_again (fun _ hs => hs) hl hm.done hcleared.fits
  have hentry := hm.entry?_again hcleared hwrote
  have hstand : p₃.workspace.disk.toStandpoint = p₁.workspace.disk.toStandpoint := by
    rw [hwrote.grows.stand, hcleared.stand]
  have hgrows : p₁.workspace.disk.Grows p₃.workspace.disk := ⟨hstand, fun x e he => ⟨e, (hentry x).trans he, rfl⟩⟩
  have htracked := fun directory hd => (hm.tracked directory hd).grows hgrows
  obtain ⟨p₄, _, hdirectories, h⟩ := h.step fun hperforms => (hperforms.supplied_again hc htracked).1
  have hsame : p₄.workspace.disk = p₃.workspace.disk := (hdirectories.supplied_again hc htracked).2
  obtain ⟨p₅, _, hformat, h⟩ := h.step fun hperforms => (hperforms.harmless hr rfl).1
  cases h
  have hlast : p'.workspace = p₄.workspace := (hformat.harmless hr rfl).2
  rw [hlast, hsame]
  exact ⟨rfl, hstand, hentry⟩

end Plan

/-! ## 4. Whole runs -/

namespace Request

variable {r : Request} {config : Config}

/-- **A run can be repeated.** A run that succeeds into a project that is there, with tools that change nothing, is
    followed by another on what it leaves: each course of the other succeeds with the same plan, so that it tells of as
    many layouts and views, leaves every file and directory with its content, and reports the same links; if only the
    file of routes and the templates of the user lie outside of the project and nothing is to be committed. -/
theorem run_again {p p' : Progress σ} {passages : List (Passage σ)} (hc : config.check libs.patterns = .ok config)
    (hr : runner.Harmless) (ho : r.ReadsOutside config p.workspace.disk.here) (hs : r.skipCreation = true)
    (hn : r.noCommit = true) (hd : p.workspace.disk.Sound) (h : r.Course config libs runner p passages (.ok plan) p')
    {q : Progress σ} (hq : q.workspace = p'.workspace) :
    (∃ passages', r.Course config libs runner q passages' ((r.run config libs runner).run q).1
      ((r.run config libs runner).run q).2) ∧
    ∀ passages' result q', r.Course config libs runner q passages' result q' →
      result = .ok plan ∧
      (∀ place, q'.workspace.disk.entry? place = p'.workspace.disk.entry? place) ∧
      (∀ path, q'.workspace.disk.read path = p'.workspace.disk.read path) ∧
      q'.workspace.store = p'.workspace.store ∧
      (plan.summary q').layouts = (plan.summary p').layouts ∧ (plan.summary q').views = (plan.summary p').views ∧
        (plan.summary q').links = (plan.summary p').links := by
  refine ⟨r.course_run config libs runner q, fun passages' result q' h' => ?_⟩
  obtain ⟨p₁, hmake, hcourse⟩ := h.planned_of_ok rfl
  obtain ⟨rfl, rfl, haccepted, hidle⟩ := of_make hmake
  have hcommit : Stage.commit ∉ plan.stages := by
    rw [plan.stages_eq hs hn]
    decide
  have hrouting : Stage.routingModule ∈ plan.stages := by
    rw [plan.stages_eq hs hn]
    decide
  have hlinks := hcourse.links hc hcommit
  rw [if_pos hrouting] at hlinks
  rw [plan.stages_eq hs hn] at hcourse
  rw [← hidle.workspace] at hd ho
  obtain ⟨pattern, lists, hpattern, hlists, hmade⟩ := hcourse.made hr hc haccepted hd
  -- What the run reads it reads again.
  have hwithin := hmade.within hd
  obtain ⟨q₁, hmake', hworkspace⟩ := Plan.make_again hmake hs (by rwa [hidle.workspace] at ho)
    (by rwa [hidle.workspace] at hd) (by rw [hq]; exact hmade.sound) (by rw [hq, ← hidle.workspace]; exact hwithin)
  cases h' with
  | rejected hfail => cases hmake'.symm.trans hfail
  | planned hmake'' more =>
      cases hmake'.symm.trans hmake''
      rw [← hq, ← hworkspace] at hmade ⊢
      have hagain := more
      rw [plan.stages_eq hs hn] at hagain
      obtain ⟨rfl, hstand, hentry⟩ := hagain.again hr hc hpattern hlists hmade
      have hlinks' := more.links hc hcommit
      rw [if_pos hrouting] at hlinks'
      exact ⟨rfl, hentry, Disk.read_congr hstand hentry, more.store hr hcommit, rfl, rfl, hlinks'.trans hlinks.symm⟩

/-- Behind the run into the shop another one finds all as it is. -/
theorem shop_run_again : ∃ passages plan p', shop.Course .shop .standard .quiet (.start atShop) passages (.ok plan) p' ∧
    ∀ passages' result q', shop.Course .shop .standard .quiet (.start p'.workspace) passages' result q' →
      result = .ok plan ∧ ∀ place, q'.workspace.disk.entry? place = p'.workspace.disk.entry? place := by
  obtain ⟨plan, p', hrun⟩ := run_shop
  obtain ⟨passages, hcourse⟩ := course_run .shop .shop .standard .quiet (.start atShop)
  rw [hrun] at hcourse
  have hcheck : Config.shop.check Libraries.standard.patterns = .ok .shop := check_shop
  have houtside : shop.ReadsOutside .shop (Progress.start atShop).workspace.disk.here :=
    ⟨by decide, fun directory h => by cases h⟩
  have hsound : (Progress.start atShop).workspace.disk.Sound := Disk.sound_shop
  have hagain := run_again hcheck Runner.harmless_quiet houtside rfl rfl hsound hcourse
    (q := .start p'.workspace) rfl
  exact ⟨passages, plan, p', hcourse, fun passages' result q' h =>
    ⟨(hagain.2 passages' result q' h).1, (hagain.2 passages' result q' h).2.1⟩⟩

end Request

end RouteScaffold
