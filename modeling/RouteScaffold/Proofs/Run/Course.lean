import RouteScaffold.Proofs.Run.Rejection
import RouteScaffold.Proofs.Schema.Accepted
import RouteScaffold.Proofs.Writing.OnDisk

/-!
# The course of a run

Behind its preparation a run passes through its stages (`Plan.Course`), one `Passage` for each, up to the first that
fails. Where a stage writes planned files its writers go on side by side, so that a run has a course for every
interleaving (`Plan.Performs`).

* `Run.FilesOnly`: parts of a run that work on files only, put together from such parts;
* `Plan.performs_perform`, `Request.course_run`: what the stages do one after the other is one of the courses.
-/

namespace RouteScaffold

variable {σ : Type}

/-! ## 1. Work on files -/

namespace Progress

/-- Nothing but files has changed, and what is counted of them. -/
structure Filed (p p' : Progress σ) : Prop where
  store : p'.workspace.store = p.workspace.store
  events : p'.events = p.events
  commit : p'.commit = p.commit

theorem Filed.refl (p : Progress σ) : p.Filed p := ⟨rfl, rfl, rfl⟩

theorem Filed.trans {p p' p'' : Progress σ} (h : p.Filed p') (h' : p'.Filed p'') : p.Filed p'' :=
  ⟨h'.store.trans h.store, h'.events.trans h.events, h'.commit.trans h.commit⟩

theorem Filed.invoked {p p' : Progress σ} (h : p.Filed p') : p'.invoked = p.invoked := by
  rw [Progress.invoked, Progress.invoked, h.events]

end Progress

namespace Run

variable {α β : Type}

/-- A part of a run that works on files only. -/
def FilesOnly (m : Run σ α) : Prop := ∀ p : Progress σ, p.Filed (m.run p).2

theorem run_filing (f : Filing α) (p : Progress σ) : (filing f).run p =
    (((f.run p.workspace.disk).1).mapError .file, p.withDisk (f.run p.workspace.disk).2) :=
  run_onDisk (f.failingWith .file) p

namespace FilesOnly

theorem filing (f : Filing α) : FilesOnly (Run.filing f : Run σ α) := by
  intro p
  rw [run_filing]
  exact ⟨rfl, rfl, rfl⟩

theorem orFail {ε : Type} (wrap : ε → RunError) (x : Except ε α) : FilesOnly (Run.orFail wrap x : Run σ α) := by
  intro p
  cases x with
  | error e => exact .refl p
  | ok value => exact .refl p

theorem throw (e : RunError) : FilesOnly (throw e : Run σ α) := fun p => .refl p

theorem countFiles (n : Nat) : FilesOnly (Run.countFiles n : Run σ Unit) := fun _ => ⟨rfl, rfl, rfl⟩

theorem bind {m : Run σ α} {f : α → Run σ β} (hm : FilesOnly m) (hf : ∀ value, FilesOnly (f value)) :
    FilesOnly (m >>= f) := by
  intro p
  rcases h : m.run p with ⟨e | value, p'⟩
  · have hp := hm p
    rw [h] at hp
    rw [run_bind_of_error h]
    exact hp
  · have hp := hm p
    rw [h] at hp
    rw [run_bind_of_ok h]
    exact hp.trans (hf value p')

theorem forM {xs : List α} {f : α → Run σ Unit} (hf : ∀ x, FilesOnly (f x)) : FilesOnly (xs.forM f) := by
  induction xs with
  | nil => exact fun p => .refl p
  | cons x rest ih => exact bind (hf x) fun _ => ih

end FilesOnly

/-- Reports one by one. -/
theorem run_forM_report (lines : List String) (f : String → Event) (p : Progress σ) :
    (lines.forM fun line => report (f line)).run p = (.ok (), { p with events := p.events ++ lines.map f }) := by
  induction lines generalizing p with
  | nil =>
      rw [List.map_nil, List.append_nil]
      rfl
  | cons line rest ih =>
      have hstep : ((line :: rest).forM fun line => report (f line)).run p =
          (rest.forM fun line => report (f line)).run { p with events := p.events ++ [f line] } := rfl
      rw [hstep, ih, List.map_cons, ← List.append_cons]

end Run

/-! ## 2. Stages -/

/-- The tool that serves a stage. -/
def Stage.tool? : Stage → Option ToolStage
  | .bootstrap => some .bootstrap
  | .install => some .install
  | .format => some .format
  | _ => none

/-- A stage that a run has passed through: the progress ahead of it, what it gave, and the progress behind it. -/
structure Passage (σ : Type) where
  stage : Stage
  before : Progress σ
  result : Except RunError Unit
  after : Progress σ

namespace Plan

/-- **Writers side by side write planned files**, and these are counted if all succeed. -/
inductive Writes (plan : Plan) (g : Groups) (p : Progress σ) : Except RunError Unit → Progress σ → Prop where
  | ok {n : Nat} {d : Disk} (h : g.Writes plan.request.directory p.workspace.disk (.ok n) d) :
      Writes plan g p (.ok ()) { p.withDisk d with files := p.files + n }
  | error {e : FileError} {d : Disk} (h : g.Writes plan.request.directory p.workspace.disk (.error e) d) :
      Writes plan g p (.error (.file e)) (p.withDisk d)

/-- **What a stage can do**: what `Plan.perform` says, but for the order in which writers side by side write. -/
inductive Performs (plan : Plan) (libs : Libraries σ) (runner : Runner σ) (p : Progress σ) :
    Stage → Except RunError Unit → Progress σ → Prop where
  | projectFiles {result : Except RunError Unit} {p' : Progress σ} (h : plan.Writes ProjectFiles.groups p result p') :
      Performs plan libs runner p .projectFiles result p'
  | components {g : Groups} {result : Except RunError Unit} {p' : Progress σ}
      (hg : Expansion.ofSpec plan.renderer plan.spec = .ok g) (h : plan.Writes g p result p') :
      Performs plan libs runner p .components result p'
  | notRendered {fault : RenderFault} (hg : Expansion.ofSpec plan.renderer plan.spec = .error fault) :
      Performs plan libs runner p .components (.error (.render fault)) p
  | other {stage : Stage} (hp : stage ≠ .projectFiles) (hc : stage ≠ .components) :
      Performs plan libs runner p stage ((plan.perform libs runner stage).run p).1
        ((plan.perform libs runner stage).run p).2

/-- The progress with the report of a stage. -/
def announced (stage : Stage) (p : Progress σ) : Progress σ := { p with events := p.events ++ [.step stage.title] }

/-- **A run through stages**, up to the first that fails. -/
inductive Course (plan : Plan) (libs : Libraries σ) (runner : Runner σ) :
    List Stage → Progress σ → List (Passage σ) → Except RunError Unit → Progress σ → Prop where
  | done (p : Progress σ) : Course plan libs runner [] p [] (.ok ()) p
  | passed {stage : Stage} {rest : List Stage} {p p₁ p' : Progress σ} {passages : List (Passage σ)}
      {result : Except RunError Unit} (h : plan.Performs libs runner (announced stage p) stage (.ok ()) p₁)
      (more : Course plan libs runner rest p₁ passages result p') :
      Course plan libs runner (stage :: rest) p (⟨stage, announced stage p, .ok (), p₁⟩ :: passages) result p'
  | failed {stage : Stage} {rest : List Stage} {p p₁ : Progress σ} {e : RunError}
      (h : plan.Performs libs runner (announced stage p) stage (.error e) p₁) :
      Course plan libs runner (stage :: rest) p [⟨stage, announced stage p, .error e, p₁⟩] (.error e) p₁

end Plan

/-- **A whole run**: it makes a plan, or fails to, and passes through the stages of the plan. -/
inductive Request.Course (r : Request) (config : Config) (libs : Libraries σ) (runner : Runner σ) (p : Progress σ) :
    List (Passage σ) → Except RunError Plan → Progress σ → Prop where
  | rejected {e : RunError} {p' : Progress σ} (h : (Plan.make libs.templates config r).run p = (.error e, p')) :
      Course r config libs runner p [] (.error e) p'
  | planned {plan : Plan} {p₁ p' : Progress σ} {passages : List (Passage σ)} {result : Except RunError Unit}
      (h : (Plan.make libs.templates config r).run p = (.ok plan, p₁))
      (more : plan.Course libs runner plan.stages p₁ passages result p') :
      Course r config libs runner p passages (result.map fun _ => plan) p'

/-! ## 3. What the stages do in order -/

namespace Plan

variable {plan : Plan} {libs : Libraries σ} {runner : Runner σ}

theorem writes_writeGroups (plan : Plan) (g : Groups) (p : Progress σ) :
    plan.Writes g p ((plan.writeGroups g).run p).1 ((plan.writeGroups g).run p).2 := by
  have hfiling := Run.run_filing (g.write plan.request.directory) p
  have hwrites := g.writes_write plan.request.directory p.workspace.disk
  rcases hw : (g.write plan.request.directory).run p.workspace.disk with ⟨e | n, d⟩
  · rw [hw] at hfiling hwrites
    rw [writeGroups, run_bind_of_error hfiling]
    exact .error hwrites
  · rw [hw] at hfiling hwrites
    rw [writeGroups, run_bind_of_ok hfiling]
    exact .ok hwrites

/-- **What a stage does is what it can do.** -/
theorem performs_perform (plan : Plan) (libs : Libraries σ) (runner : Runner σ) (stage : Stage) (p : Progress σ) :
    plan.Performs libs runner p stage ((plan.perform libs runner stage).run p).1
      ((plan.perform libs runner stage).run p).2 := by
  by_cases hp : stage = .projectFiles
  · rw [hp]
    exact .projectFiles (plan.writes_writeGroups ProjectFiles.groups p)
  by_cases hc : stage = .components
  · rw [hc, perform, writeComponents]
    cases hg : Expansion.ofSpec plan.renderer plan.spec with
    | error fault =>
        rw [run_bind_of_error (Run.run_orFail_error .render fault p)]
        exact .notRendered hg
    | ok g =>
        rw [run_bind_of_ok (Run.run_orFail_ok .render g p)]
        exact .components hg (plan.writes_writeGroups g p)
  · exact .other hp hc

theorem course_forM (plan : Plan) (libs : Libraries σ) (runner : Runner σ) (stages : List Stage) (p : Progress σ) :
    ∃ passages, plan.Course libs runner stages p passages ((stages.forM (plan.goThrough libs runner)).run p).1
      ((stages.forM (plan.goThrough libs runner)).run p).2 := by
  induction stages generalizing p with
  | nil => exact ⟨[], .done p⟩
  | cons stage rest ih =>
      have hgo : (plan.goThrough libs runner stage).run p = (plan.perform libs runner stage).run (announced stage p) :=
        run_bind_of_ok (Run.run_report _ p)
      have hperforms := plan.performs_perform libs runner stage (announced stage p)
      rw [← hgo] at hperforms
      have hcons : (stage :: rest).forM (plan.goThrough libs runner) =
          plan.goThrough libs runner stage >>= fun _ => rest.forM (plan.goThrough libs runner) := rfl
      rcases hstage : (plan.goThrough libs runner stage).run p with ⟨e | ⟨⟩, p₁⟩
      · rw [hstage] at hperforms
        rw [hcons, run_bind_of_error hstage]
        exact ⟨_, .failed hperforms⟩
      · rw [hstage] at hperforms
        rw [hcons, run_bind_of_ok hstage]
        obtain ⟨passages, hmore⟩ := ih p₁
        exact ⟨_, .passed hperforms hmore⟩

end Plan

/-- **What a run does is one of its courses.** -/
theorem Request.course_run (r : Request) (config : Config) (libs : Libraries σ) (runner : Runner σ) (p : Progress σ) :
    ∃ passages, r.Course config libs runner p passages ((r.run config libs runner).run p).1
      ((r.run config libs runner).run p).2 := by
  rcases hmake : (Plan.make libs.templates config r).run p with ⟨e | plan, p₁⟩
  · rw [Request.run, run_bind_of_error hmake]
    exact ⟨[], .rejected hmake⟩
  · obtain ⟨passages, hcourse⟩ := plan.course_forM libs runner plan.stages p₁
    rw [Request.run, run_bind_of_ok hmake]
    rcases hstages : (plan.stages.forM (plan.goThrough libs runner)).run p₁ with ⟨e | ⟨⟩, p'⟩
    · rw [hstages] at hcourse
      rw [run_bind_of_error hstages]
      exact ⟨passages, .planned hmake hcourse⟩
    · rw [hstages] at hcourse
      rw [run_bind_of_ok hstages]
      exact ⟨passages, .planned hmake hcourse⟩

/-- What is known of the plan that a run has made. -/
theorem Request.of_make {engine : TemplateEngine} {r : Request} {config : Config} {plan : Plan} {p p₁ : Progress σ}
    (h : (Plan.make engine config r).run p = (.ok plan, p₁)) :
    plan.request = r ∧ plan.config = config ∧ plan.spec.Accepted ∧ p.Idle p₁ := by
  obtain ⟨result, p', hmake, hidle, hprepared⟩ := Plan.make_outcome engine config r p
  rw [h] at hmake
  cases hmake
  cases hprepared with
  | ok _ hspec _ =>
      obtain ⟨-, _, _, -, -, hvalid⟩ := Request.loadSpec_ok hspec
      exact ⟨rfl, rfl, Spec.accepted_of_validate hvalid, hidle⟩

/-- A run that succeeds has made a plan and passed through its stages. -/
theorem Request.Course.planned_of_ok {r : Request} {config : Config} {libs : Libraries σ} {runner : Runner σ}
    {plan : Plan} {p p' : Progress σ} {passages : List (Passage σ)} {result : Except RunError Plan}
    (h : r.Course config libs runner p passages result p') (hok : result = .ok plan) : ∃ p₁,
      (Plan.make libs.templates config r).run p = (.ok plan, p₁) ∧
        plan.Course libs runner plan.stages p₁ passages (.ok ()) p' := by
  cases h with
  | rejected => cases hok
  | @planned made p₁ _ _ outcome hmake more =>
      cases outcome with
      | error e => cases hok
      | ok =>
          cases hok
          exact ⟨p₁, hmake, more⟩

end RouteScaffold
