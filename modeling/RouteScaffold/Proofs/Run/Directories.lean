import RouteScaffold.Proofs.Run.Unhindered

/-!
# Configured directories

A configured directory stays below the sources of the project, in whatever spelling it is configured, and when the
configured directories have been made each is there and holds something.

* `Plan.directories_contained`: nothing is made outside of the sources, and no directory is refused for leading there;
* `Plan.Tracks`: what the stage adds, and what is counted of it; `Plan.directories_tracked`: the stage, and the stage
  again.
-/

namespace RouteScaffold

open Disk

variable {σ : Type}

/-! ## 1. Below the sources -/

namespace Plan

/-- **Configured directories are contained in the sources.** A path is below a base exactly if it is relative and goes
    up nowhere, and then its names come behind the components of the base. So every directory of an accepted
    configuration is below the sources, whatever the project; the stage that makes them fails as a file operation does,
    never for a directory that leads out; and in every course of a run it changes nothing but below the sources, where
    it makes directories and empty files that keep them. -/
theorem directories_contained (libs : Libraries σ) :
    (∀ base path, (∃ joined, Path.below? base path = some joined) ↔
      Path.isAbsolute path = false ∧ .parent ∉ Path.components path) ∧
    (∀ base path joined, Path.below? base path = some joined →
      Path.solid joined = Path.solid base ++ (Path.components path).filter Path.Component.isName) ∧
    ∀ plan : Plan, plan.config.check libs.patterns = .ok plan.config →
      (∀ directory ∈ plan.config.directories, ∃ joined, Path.below? plan.request.sources directory = some joined) ∧
      (∀ (runner : Runner σ) p, ((plan.perform libs runner .directories).run p).1 = .ok () ∨
        ∃ e, ((plan.perform libs runner .directories).run p).1 = .error (.file e)) ∧
      ∀ (runner : Runner σ) p passages result p', plan.Course libs runner plan.stages p passages result p' →
        ∀ x ∈ passages, x.stage = .directories →
          Supplies (target x.before.workspace.disk.here plan.request.sources) x.before.workspace.disk
            x.after.workspace.disk := by
  refine ⟨fun base path => ?_, fun base path joined h => Path.solid_of_below h, fun plan hc => ?_⟩
  · constructor
    · rintro ⟨joined, h⟩
      exact (Path.below?_eq_some_iff.mp h).1
    · exact fun h => ⟨_, Path.below?_eq_some_iff.mpr ⟨h, rfl⟩⟩
  have hplain : ∀ directory ∈ plan.config.directories,
      Path.isAbsolute directory = false ∧ .parent ∉ Path.components directory :=
    fun directory hd => Config.plain_directory hc hd
  refine ⟨fun directory hd => ⟨_, Path.below?_eq_some_iff.mpr ⟨hplain directory hd, rfl⟩⟩, fun runner p => ?_,
    fun runner p passages result p' h x hx hs => ?_⟩
  · obtain ⟨n, hrun⟩ := plan.run_makeDirectories hplain p
    rw [perform, hrun]
    rcases ((Filing.ensureAllTracked (plan.config.directories.map (Path.join plan.request.sources))).run
      p.workspace.disk).1 with e | ⟨⟩
    · exact .inr ⟨e, rfl⟩
    · exact .inl rfl
  · obtain ⟨hroot, hperform⟩ := h.hasRoot_at_directories hx hs
    obtain ⟨n, hrun⟩ := plan.run_makeDirectories hplain x.before
    have hafter := hperform.symm.trans hrun
    rw [(Prod.mk.inj hafter).2]
    refine Filing.supplies_ensureAllTracked fun path hp => ?_
    obtain ⟨directory, hd, rfl⟩ := List.mem_map.mp hp
    exact leadsBelow hroot (hplain directory hd)

end Plan

/-- The run into the shop makes its directories below the sources, and nothing else in their stage. -/
theorem Plan.shop_contained : ∃ (plan : Plan) (passages : List (Passage Git.Memory)) (p p' : Progress Git.Memory),
    plan.config.check .standard = .ok plan.config ∧ plan.Course .standard .quiet plan.stages p passages (.ok ()) p' ∧
    ∃ x ∈ passages, x.stage = .directories ∧ Supplies (target x.before.workspace.disk.here plan.request.sources)
      x.before.workspace.disk x.after.workspace.disk := by
  obtain ⟨plan, p', hrun⟩ := Request.run_shop
  obtain ⟨passages, hcourse⟩ := Request.course_run .shop .shop .standard .quiet (.start Request.atShop)
  rw [hrun] at hcourse
  obtain ⟨p, hmake, hcourse⟩ := hcourse.planned_of_ok rfl
  obtain ⟨-, hconfig, -, -⟩ := Request.of_make hmake
  have hcheck : plan.config.check .standard = .ok plan.config := by rw [hconfig, Request.check_shop]
  obtain ⟨front, back, -, -, hstages⟩ := plan.stages_around
  obtain ⟨x, hx, hstage⟩ : ∃ x ∈ passages, x.stage = .directories := by
    rw [← List.mem_map, (hcourse.succeeds.mp rfl).1, hstages]
    exact List.mem_append_right _ List.mem_cons_self
  exact ⟨plan, passages, p, p', hcheck, hcourse, x, hx, hstage,
    ((Plan.directories_contained .standard).2.2 plan hcheck).2.2 _ _ _ _ _ hcourse x hx hstage⟩

/-! ## 2. The stage -/

namespace Plan

variable {plan : Plan} {libs : Libraries σ} {p p' : Progress σ}

/-- A stage has tracked the configured directories, with what has been there as it was. -/
structure Tracks (plan : Plan) (p p' : Progress σ) : Prop where
  tracked : plan.AllTracked plan.config.directories p'.workspace.disk
  /-- What is counted is the files that keep directories and have not been there. -/
  counted : ∃ keepers : Finset Place, p'.files = p.files + keepers.card ∧ ∀ x, x ∈ keepers ↔
    (∃ directory, x = directory ++ [keeper]) ∧ NewFile p.workspace.disk p'.workspace.disk x
  kept : ∀ x e, p.workspace.disk.entry? x = some e → p'.workspace.disk.entry? x = some e
  /-- What is new is a directory on the way of a configured one, that one included, or an empty file that keeps one. -/
  added : ∀ x e, p.workspace.disk.entry? x = none → p'.workspace.disk.entry? x = some e →
    ∃ directory ∈ plan.config.directories, ∃ path, Path.below? plan.request.sources directory = some path ∧
      (x ∈ way p.workspace.disk.here path ∧ e = .directory ∨
        x = target p.workspace.disk.here path ++ [keeper] ∧ e = .file .empty)
  others : p' = { p.withDisk p'.workspace.disk with files := p'.files } ∧
    p'.workspace.disk.here = p.workspace.disk.here

/-- **When the stage of directories has succeeded**, every configured directory is there and holds something, in
    whatever order they are configured and however they lie in one another: only what has been missing of them is new,
    what is counted is the files that keep them, and the stage succeeds again, changes nothing and counts nothing. -/
theorem directories_tracked {runner : Runner σ} (h : (plan.perform libs runner .directories).run p = (.ok (), p')) :
    plan.Tracks p p' ∧ (plan.perform libs runner .directories).run p' = (.ok (), p') := by
  obtain ⟨n, hp', hequips, hall⟩ := equips_makeDirectories h
  have hfiles : p'.files = p.files + n := congrArg Progress.files hp'
  refine ⟨⟨hall, ?counted, fun x e he => hequips.kept he, ?added, ?others, hequips.here⟩,
    makeDirectories_of_isTracked hall⟩
  case counted =>
    obtain ⟨keepers, hcard, hmem⟩ := hequips.counted
    refine ⟨keepers, by rw [hcard, hfiles], fun x => ?_⟩
    rw [hmem, iff_and_self]
    rintro ⟨hnone, content, he⟩
    -- The only new files are those that keep directories.
    obtain ⟨path, -, ⟨-, hfile⟩ | ⟨hplace, -⟩⟩ := hequips.added hnone he
    · cases hfile
    · exact ⟨_, hplace⟩
  case added =>
    intro x e hnone he
    obtain ⟨path, hp, hnew⟩ := hequips.added hnone he
    obtain ⟨directory, hd, hbelow⟩ := List.mem_filterMap.mp hp
    exact ⟨directory, hd, path, hbelow, hnew⟩
  case others =>
    rw [hfiles]
    exact hp'

/-- A plan whose directories lie in one another. -/
def nesting : Plan where
  request := .shop
  config := { Config.standard with directories := ["a", "a/b/c", "./a//b", "a"] }
  spec := ⟨[]⟩
  renderer := .builtin

/-- Of its directories the outermost and the innermost get a file that keeps them. -/
theorem nesting_tracked : ∃ p',
    (nesting.perform .standard .quiet .directories).run (.start Request.atShop) = (.ok (), p') ∧
    p'.files = 2 ∧ nesting.Tracks (.start Request.atShop) p' ∧
    (nesting.perform .standard .quiet .directories).run p' = (.ok (), p') := by
  have hfiles : (match (nesting.perform .standard .quiet .directories).run (.start Request.atShop) with
      | (.ok _, p') => decide (p'.files = 2)
      | (.error _, _) => false) = true := by decide +kernel
  rcases hrun : (nesting.perform .standard .quiet .directories).run (.start Request.atShop) with ⟨e | ⟨⟩, p'⟩
  · rw [hrun] at hfiles
    cases hfiles
  · rw [hrun] at hfiles
    exact ⟨p', rfl, of_decide_eq_true hfiles, directories_tracked hrun⟩

end Plan

end RouteScaffold
