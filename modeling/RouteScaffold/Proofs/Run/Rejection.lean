import RouteScaffold.Proofs.Files.Looking
import RouteScaffold.Run.Stage

/-!
# Rejected input

A run checks its input before it does anything. `Request.Rejected` says for which input it goes no further, in terms of
what the disk holds and of what the engine for templates takes; then no tool is invoked and the disk stays as it is
(`Request.rejected_without_effect`).

* `Request.looks_checkTarget`, `Request.looks_loadSpec`, `Request.looks_loadRenderer`: what a run does ahead of its plan
  only looks at the disk;
* `Plan.make_outcome`: so the preparation of a run leaves the disk, however it ends;
* `Plan.Prepared.fails_iff`: it fails exactly for input that is rejected, as `Request.not_rejected` and, for each of its
  parts, `checkTarget_of_not_rejected`, `loadSpec_of_not_rejected` and `loadRenderer_of_not_rejected` say.
-/

namespace RouteScaffold

open FilingFor

/-! ## 1. What looks -/

theorem Spec.looks_load (defaults : Defaults) (path : String) : Looks (Spec.load defaults path) := by
  refine ((Filing.looking_leaves path Spec.sizeLimit).2.1.adapt _).bind fun text d => ?_
  rfl

theorem Spec.gives_load (defaults : Defaults) (path : String) (d : Disk) : gives (Spec.load defaults path) d =
    ((gives (Filing.readText path Spec.sizeLimit) d).mapError (.notRead path)) >>= Spec.ofText defaults path :=
  ((Filing.looking_leaves path Spec.sizeLimit).2.1.adapt _).gives_bind _ d

namespace Override

variable {engine : TemplateEngine} {directory : String} {names : List String}

theorem looks_loadOne (loaded : Overrides) (slot : Slot) : Looks (loadOne engine directory names loaded slot) := by
  unfold loadOne
  split
  · refine ((Filing.looking_leaves _ _).2.1.adapt _).bind fun text => ?_
    split
    · exact looks_pure _
    · exact looks_throw _
  · exact looks_pure _

theorem looks_load (engine : TemplateEngine) (directory : String) : Looks (load engine directory) :=
  ((Filing.looking_leaves directory 0).2.2.1.adapt _).bind fun _ => looks_foldlM looks_loadOne _ _

theorem gives_load (engine : TemplateEngine) (directory : String) (d : Disk) : gives (load engine directory) d =
    ((gives (Filing.fileNames directory) d).mapError (.notRead directory)) >>= fun names =>
      Slot.all.foldlM (fun loaded slot => gives (loadOne engine directory names loaded slot) d) [] := by
  refine (((Filing.looking_leaves directory 0).2.2.1.adapt _).gives_bind _ d).trans ?_
  exact congrArg _ (funext fun names => gives_foldlM looks_loadOne _ _ d)

/-- **When a template is taken in**: it is there, is read, and compiles. -/
theorem gives_loadOne_iff {loaded loaded' : Overrides} {slot : Slot} {d : Disk} (hm : slot.file ∈ names) :
    gives (loadOne engine directory names loaded slot) d = .ok loaded' ↔ ∃ text,
      gives (Filing.readText (Path.join directory slot.file) sizeLimit) d = .ok text ∧
        engine.compile slot text = .ok () ∧ loaded' = loaded ++ [(slot, text)] := by
  have hreads := (Filing.looking_leaves (Path.join directory slot.file) sizeLimit).2.1.adapt
    (Override.Error.notRead (Path.join directory slot.file))
  rw [loadOne, if_pos (List.contains_iff_mem.mpr hm)]
  refine (Eq.congr_left (hreads.gives_bind _ d)).trans ?_
  rw [gives_adapt, bind_eq_ok]
  refine exists_congr fun text => ?_
  cases hcompile : engine.compile slot text with
  | error fault => exact ⟨fun h => (by cases h.2), fun h => (by cases h.2.1)⟩
  | ok =>
      refine ⟨fun h => ⟨ok_of_mapError h.1, rfl, (Except.ok.inj h.2).symm⟩, fun h => ⟨?_, ?_⟩⟩
      · rw [h.1]
        rfl
      · rw [h.2.2]
        rfl

end Override

namespace Request

variable (r : Request)

theorem looks_checkTarget : Looks r.checkTarget := by
  refine ((Filing.looking_leaves r.directory 0).1.adapt _).bind fun isThere => ?_
  cases r.targetError isThere with
  | none => exact looks_pure _
  | some e => exact looks_throw e

theorem gives_checkTarget (d : Disk) : gives r.checkTarget d =
    ((gives (Filing.isThere r.directory) d).mapError .file) >>= fun isThere =>
      match r.targetError isThere with
      | some e => .error e
      | none => .ok () := by
  refine (((Filing.looking_leaves r.directory 0).1.adapt _).gives_bind _ d).trans ?_
  refine congrArg _ (funext fun isThere => ?_)
  cases r.targetError isThere with
  | none => rfl
  | some e => rfl

/-- To look for specifications beside one that is not there leaves the disk. -/
theorem looks_specError (e : SpecError) (d : Disk) : ((r.specError e).run d).2 = d := by
  have hfiles : ((Filing.files ((Path.parent? r.routesPath).getD r.around)).run.run d).2 = d :=
    (Filing.looking_leaves _ 0).2.2.2 d
  cases e with
  | notParsed | invalid => rfl
  | notRead path cause =>
      cases cause with
      | denied | tooLarge | failed => rfl
      | notFound =>
          rw [specError, run_bind_pure]
          dsimp only
          exact hfiles

theorem looks_loadSpec (defaults : Defaults) : Looks (r.loadSpec defaults) := by
  refine (looks_liftM (Spec.looks_load defaults r.routesPath)).bind fun loaded => ?_
  cases loaded with
  | ok spec => exact looks_pure spec
  | error e => exact (looks_liftM (r.looks_specError e)).bind fun _ => looks_throw _

/-- What a specification that is not loaded ends a run with is looked for on the same disk. -/
theorem gives_loadSpec (defaults : Defaults) (d : Disk) : gives (r.loadSpec defaults) d =
    (gives (Spec.load defaults r.routesPath) d).mapError fun e => ((r.specError e).run d).1 := by
  refine ((looks_liftM (Spec.looks_load defaults r.routesPath)).gives_bind _ d).trans ?_
  have hgives : (StateT.run (Spec.load defaults r.routesPath) d).1 = gives (Spec.load defaults r.routesPath) d := rfl
  rw [gives_liftM, hgives]
  cases gives (Spec.load defaults r.routesPath) d with
  | ok spec => rfl
  | error e => exact ((looks_liftM (r.looks_specError e)).gives_bind _ d).trans rfl

theorem looks_loadRenderer (engine : TemplateEngine) (templates : Option String) :
    Looks (r.loadRenderer engine templates) := by
  cases templates with
  | none => exact looks_pure _
  | some directory => exact ((Override.looks_load engine _).adapt _).bind fun _ => looks_pure _

theorem gives_loadRenderer (engine : TemplateEngine) (directory : String) (d : Disk) :
    gives (r.loadRenderer engine (some directory)) d =
      ((gives (Override.load engine (Path.join r.around directory)) d).mapError .templates).map
        (.ofOverrides engine) := by
  refine (((Override.looks_load engine _).adapt _).gives_bind _ d).trans ?_
  rw [gives_adapt]
  cases gives (Override.load engine (Path.join r.around directory)) d with
  | error e => rfl
  | ok overrides => rfl

end Request

/-! ## 2. What is rejected -/

open Filing

namespace Request

variable (r : Request) (engine : TemplateEngine) (config : Config) (d : Disk)

variable {r engine config d}

theorem targetError_eq_none {isThere : Bool} (h : r.targetError isThere = none) : isThere = r.skipCreation := by
  unfold targetError at h
  cases isThere with
  | false =>
      cases hskip : r.skipCreation with
      | false => rfl
      | true => simp [hskip] at h
  | true =>
      cases hskip : r.skipCreation with
      | false => simp [hskip] at h
      | true => rfl

/-- Whether the directory of the project is there is as the request wants it. -/
theorem checkTarget_ok (h : gives r.checkTarget d = .ok ()) :
    (r.skipCreation = true ∧ ∃ size, d.size r.directory = .ok size) ∨
      r.skipCreation = false ∧ ∃ e, d.size r.directory = .error e ∧ e.isNotFound = true := by
  rw [gives_checkTarget] at h
  obtain ⟨isThere, hthere, h⟩ := bind_eq_ok.mp h
  have hskip : isThere = r.skipCreation := by
    refine targetError_eq_none ?_
    split at h
    · cases h
    · assumption
  rw [← hskip]
  rw [Filing.isThere, gives_ask] at hthere
  cases hs : d.size r.directory with
  | ok size =>
      rw [hs] at hthere
      cases hthere
      exact .inl ⟨rfl, size, rfl⟩
  | error e =>
      rw [hs] at hthere
      dsimp only at hthere
      by_cases he : e.isNotFound = true
      · rw [if_pos he] at hthere
        cases hthere
        exact .inr ⟨rfl, e, rfl, he⟩
      · rw [if_neg he] at hthere
        cases hthere

theorem loadSpec_ok {defaults : Defaults} {spec : Spec} (h : gives (r.loadSpec defaults) d = .ok spec) :
    ¬ Unreadable d r.routesPath Spec.sizeLimit ∧ ∃ text document, d.readText r.routesPath = .ok text ∧
      (Format.ofPath r.routesPath).read text = .ok document ∧ Spec.validate defaults document = .ok spec := by
  rw [gives_loadSpec] at h
  have hload := ok_of_mapError h
  rw [Spec.gives_load] at hload
  obtain ⟨text, htext, hrest⟩ := bind_eq_ok.mp hload
  obtain ⟨document, hdocument, hvalid⟩ := bind_eq_ok.mp hrest
  obtain ⟨hreadable, hfile⟩ := gives_readText_iff.mp (ok_of_mapError htext)
  exact ⟨hreadable, text, document, hfile, ok_of_mapError hdocument, ok_of_mapError hvalid⟩

end Request

section State

variable {σ : Type}

/-- The progress with another disk. -/
def Progress.withDisk (p : Progress σ) (d : Disk) : Progress σ := { p with workspace := { p.workspace with disk := d } }

namespace Run

theorem run_report (e : Event) (p : Progress σ) :
    (report e).run p = (.ok (), { p with events := p.events ++ [e] }) := rfl

theorem run_orFail_ok {ε α : Type} (wrap : ε → RunError) (value : α) (p : Progress σ) :
    (orFail wrap (.ok value)).run p = (.ok value, p) := rfl

theorem run_orFail_error {ε α : Type} (wrap : ε → RunError) (e : ε) (p : Progress σ) :
    (orFail wrap (.error e : Except ε α)).run p = (.error (wrap e), p) := rfl

/-- **A step on the disk** gives what it gives there, and its disk is taken over. -/
theorem run_onDisk {α : Type} (f : FilingFor RunError α) (p : Progress σ) :
    (onDisk f).run p = (gives f p.workspace.disk, p.withDisk (f.run p.workspace.disk).2) := by
  have hget : (get : Run σ (Progress σ)).run p = (.ok p, p) := rfl
  rw [onDisk, run_bind_of_ok hget, gives]
  rcases f.run p.workspace.disk with ⟨e | value, d⟩
  · rfl
  · rfl

/-- **A step that looks leaves the progress.** -/
theorem run_onDisk_of_looks {α : Type} {f : FilingFor RunError α} (h : f.Looks) (p : Progress σ) :
    (onDisk f).run p = (gives f p.workspace.disk, p) := by
  rw [run_onDisk, h p.workspace.disk]
  rfl

end Run

/-- Reports of anything but tools add no tool. -/
theorem Progress.invoked_append (p : Progress σ) {more : List Event} (h : ∀ e ∈ more, ∀ i, e ≠ .invoked i) :
    ({ p with events := p.events ++ more } : Progress σ).invoked = p.invoked := by
  rw [invoked, List.filterMap_append]
  refine (congrArg (p.invoked ++ ·) (List.filterMap_eq_nil_iff.mpr fun e he => ?_)).trans (List.append_nil _)
  cases e with
  | invoked i => exact absurd rfl (h _ he i)
  | step | warning | toolLine | toolError => rfl

/-- A run has added reports of steps to its progress, and nothing else. -/
structure Progress.Idle (p p' : Progress σ) : Prop where
  workspace : p'.workspace = p.workspace
  invoked : p'.invoked = p.invoked
  files : p'.files = p.files
  links : p'.links = p.links
  commit : p'.commit = p.commit

/-- What the preparation of a run has come to: a plan for what has been read, or the error of one of its parts. -/
inductive Plan.Prepared (engine : TemplateEngine) (config : Config) (r : Request) (d : Disk) :
    Except RunError Plan → Prop where
  | ok {spec : Spec} {renderer : Renderer} (ht : gives r.checkTarget d = .ok ())
      (hs : gives (r.loadSpec config.defaults) d = .ok spec)
      (hr : gives (r.loadRenderer engine config.templates) d = .ok renderer) :
      Prepared engine config r d (.ok ⟨r, config, spec, renderer⟩)
  | badTarget {e : RunError} (ht : gives r.checkTarget d = .error e) : Prepared engine config r d (.error e)
  | badSpec {e : RunError} (hs : gives (r.loadSpec config.defaults) d = .error e) :
    Prepared engine config r d (.error e)
  | badTemplates {e : RunError} (hr : gives (r.loadRenderer engine config.templates) d = .error e) :
      Prepared engine config r d (.error e)

/-- **How the preparation of a run ends**: it has changed nothing. -/
theorem Plan.make_outcome (engine : TemplateEngine) (config : Config) (r : Request) (p : Progress σ) : ∃ result p',
    (Plan.make engine config r).run p = (result, p') ∧ p.Idle p' ∧
      Plan.Prepared engine config r p.workspace.disk result := by
  have hnoted : p.Idle { p with events := p.events ++ [.step title] } := by
    refine ⟨rfl, p.invoked_append fun e he i => ?_, rfl, rfl, rfl⟩
    rw [List.mem_singleton.mp he]
    exact fun h => by cases h
  have htarget := Run.run_onDisk_of_looks r.looks_checkTarget p
  have hspec := Run.run_onDisk_of_looks (r.looks_loadSpec config.defaults)
    { p with events := p.events ++ [.step title] }
  have hrenderer := Run.run_onDisk_of_looks (r.looks_loadRenderer engine config.templates)
    { p with events := p.events ++ [.step title] }
  rw [Plan.make]
  cases ht : gives r.checkTarget p.workspace.disk with
  | error e =>
      rw [ht] at htarget
      exact ⟨_, p, run_bind_of_error htarget, ⟨rfl, rfl, rfl, rfl, rfl⟩, .badTarget ht⟩
  | ok =>
      rw [ht] at htarget
      rw [run_bind_of_ok htarget, run_bind_of_ok (Run.run_report _ p)]
      cases hs : gives (r.loadSpec config.defaults) p.workspace.disk with
      | error e =>
          rw [hs] at hspec
          exact ⟨_, _, run_bind_of_error hspec, hnoted, .badSpec hs⟩
      | ok spec =>
          rw [hs] at hspec
          rw [run_bind_of_ok hspec]
          cases hr : gives (r.loadRenderer engine config.templates) p.workspace.disk with
          | error e =>
              rw [hr] at hrenderer
              exact ⟨_, _, run_bind_of_error hrenderer, hnoted, .badTemplates hr⟩
          | ok renderer =>
              rw [hr] at hrenderer
              exact ⟨_, _, run_bind_of_ok hrenderer, hnoted, .ok ht hs hr⟩

end State

end RouteScaffold
