import RouteScaffold.Proofs.Run.StageEffects

/-!
# The order of a run

Whatever the tools answer and however the writers take turns, a run passes through its stages in order and stops at the
first that fails (`Orderly`).

* `Linked`: what one stage leaves is what the next begins with;
* `Request.run_orderly`: every course of a run is in order.
-/

namespace RouteScaffold

variable {σ : Type} {plan : Plan} {libs : Libraries σ} {runner : Runner σ}

/-! ## 1. One behind the other -/

/-- What a passage leaves is what the next begins with, but for the report of that one's stage. -/
def Linked : Progress σ → List (Passage σ) → Progress σ → Prop
  | p, [], p' => p' = p
  | p, x :: rest, p' => x.before = Plan.announced x.stage p ∧ Linked x.after rest p'

theorem Plan.invoked_announced (stage : Stage) (p : Progress σ) : (announced stage p).invoked = p.invoked := by
  refine p.invoked_append fun e he i => ?_
  rw [List.mem_singleton.mp he]
  exact fun h => by cases h

/-- The tools that passages invoke. -/
def invokedBy (plan : Plan) (passages : List (Passage σ)) : List Invocation :=
  passages.filterMap fun x => x.stage.tool?.map plan.invocation

/-- **Tools are invoked by the stages that they serve**, and by nothing else. -/
theorem Linked.invoked {p p' : Progress σ} {passages : List (Passage σ)} (h : Linked p passages p')
    (he : ∀ x ∈ passages, x.Effects plan libs runner) : p'.invoked = p.invoked ++ invokedBy plan passages := by
  induction passages generalizing p with
  | nil =>
      rw [h]
      exact (List.append_nil _).symm
  | cons x rest ih =>
      rw [List.forall_mem_cons] at he
      obtain ⟨hbefore, hrest⟩ := h
      have hx : x.before.invoked = p.invoked := by rw [hbefore, Plan.invoked_announced]
      rw [ih hrest he.2, invokedBy, invokedBy, List.filterMap_cons]
      cases ht : x.stage.tool? with
      | none => rw [he.1.quiet ht, hx, Option.map_none]
      | some t => rw [(he.1.tool t ht).2.1, hx, List.append_assoc, List.singleton_append, Option.map_some]

/-- Where nothing is committed the last commit is kept. -/
theorem Linked.commit {p p' : Progress σ} {passages : List (Passage σ)} (h : Linked p passages p')
    (he : ∀ x ∈ passages, x.Effects plan libs runner) (hc : ∀ x ∈ passages, x.stage ≠ .commit) :
      p'.commit = p.commit := by
  induction passages generalizing p with
  | nil => rw [h]
  | cons x rest ih =>
      rw [List.forall_mem_cons] at he hc
      obtain ⟨hbefore, hrest⟩ := h
      rw [ih hrest he.2 hc.2, he.1.uncommitted hc.1, hbefore]
      rfl

theorem Linked.concat {p p' : Progress σ} {passages : List (Passage σ)} {x : Passage σ}
    (h : Linked p (passages ++ [x]) p') :
    (∃ q, Linked p passages q ∧ x.before = Plan.announced x.stage q) ∧ p' = x.after := by
  induction passages generalizing p with
  | nil =>
      obtain ⟨hbefore, rfl⟩ := h
      exact ⟨⟨p, rfl, hbefore⟩, rfl⟩
  | cons y rest ih =>
      obtain ⟨hbefore, hrest⟩ := h
      obtain ⟨⟨q, hlinked, hlast⟩, hend⟩ := ih hrest
      exact ⟨⟨q, ⟨hbefore, hlinked⟩, hlast⟩, hend⟩

/-! ## 2. The order of stages -/

/-- The number of a stage among all stages. -/
def Stage.number : Stage → Nat
  | .bootstrap => 0
  | .install => 1
  | .cleanup => 2
  | .projectFiles => 3
  | .components => 4
  | .routingModule => 5
  | .directories => 6
  | .format => 7
  | .commit => 8

/-- The stages of a plan are in the order of their numbers. -/
theorem Plan.stages_ordered (plan : Plan) : plan.stages.Pairwise fun a b => a.number < b.number := by
  unfold stages
  cases plan.request.skipCreation with
  | false =>
      cases plan.request.noCommit with
      | false => decide
      | true => decide
  | true =>
      cases plan.request.noCommit with
      | false => decide
      | true => decide

/-- The tools of a plan in order. -/
def Plan.tools (plan : Plan) : List Invocation :=
  (if plan.request.skipCreation then [] else [plan.invocation .bootstrap]) ++
    [plan.invocation .install, plan.invocation .format]

theorem Plan.tools_eq (plan : Plan) : plan.stages.filterMap (fun s => s.tool?.map plan.invocation) = plan.tools := by
  unfold stages tools
  cases plan.request.skipCreation with
  | false =>
      cases plan.request.noCommit with
      | false => rfl
      | true => rfl
  | true =>
      cases plan.request.noCommit with
      | false => rfl
      | true => rfl

section Stages

variable {before after : List Stage} {stage other : Stage}

/-- **Ahead of a stage of a plan stand those with a smaller number**, -/
theorem Plan.mem_before (h : before ++ stage :: after <+: plan.stages) (hm : other ∈ plan.stages)
    (hn : other.number < stage.number) : other ∈ before := by
  obtain ⟨more, hmore⟩ := h
  have hordered := plan.stages_ordered
  rw [← hmore, List.append_assoc, List.cons_append] at hordered hm
  rcases List.mem_append.mp hm with hm | hm
  · exact hm
  rcases List.mem_cons.mp hm with rfl | hm
  · omega
  · have hlater := List.rel_of_pairwise_cons (List.pairwise_append.mp hordered).2.1 hm
    omega

/-- and no others. -/
theorem Plan.not_mem_before (h : before ++ stage :: after <+: plan.stages) (hn : stage.number < other.number) :
    other ∉ before := by
  intro hm
  obtain ⟨more, hmore⟩ := h
  have hordered := plan.stages_ordered
  rw [← hmore, List.append_assoc, List.cons_append] at hordered
  have hless := (List.pairwise_append.mp hordered).2.2 other hm stage List.mem_cons_self
  omega

end Stages

/-- Every plan installs and formats. -/
theorem Plan.mem_stages (plan : Plan) : .install ∈ plan.stages ∧ .format ∈ plan.stages := by
  unfold stages
  simp

/-- The stages of a plan end with a commit, if it is to commit; there is no other. -/
theorem Plan.stages_commit (plan : Plan) : ∃ front, .commit ∉ front ∧
    ((plan.request.noCommit = true ∧ plan.stages = front) ∨
      plan.request.noCommit = false ∧ plan.stages = front ++ [.commit]) := by
  refine ⟨(if plan.request.skipCreation then [] else [.bootstrap]) ++
    [.install, .cleanup, .projectFiles, .components, .routingModule, .directories, .format], ?_, ?_⟩
  · cases plan.request.skipCreation with
    | false => decide
    | true => decide
  · unfold stages
    cases plan.request.noCommit with
    | false => exact .inr ⟨rfl, rfl⟩
    | true => exact .inl ⟨rfl, List.append_nil _⟩

/-- What works on files stands between the installation and the formatting. -/
theorem Stage.number_files {stage : Stage} (ht : stage.tool? = none) (hc : stage ≠ .commit) :
    Stage.install.number < stage.number ∧ stage.number < Stage.format.number := by
  cases stage with
  | bootstrap | install | format => cases ht
  | commit => exact absurd rfl hc
  | cleanup | projectFiles | components | routingModule | directories => decide

/-! ## 3. Every course -/

namespace Plan.Course

variable {stages : List Stage} {p p' : Progress σ} {passages : List (Passage σ)} {result : Except RunError Unit}

theorem linked (h : plan.Course libs runner stages p passages result p') : Linked p passages p' := by
  induction h with
  | done => rfl
  | passed _ _ ih => exact ⟨rfl, ih⟩
  | failed => exact ⟨rfl, rfl⟩

theorem stages_prefix (h : plan.Course libs runner stages p passages result p') :
    passages.map Passage.stage <+: stages := by
  induction h with
  | done => exact List.prefix_rfl
  | passed _ _ ih => exact List.cons_prefix_cons.mpr ⟨rfl, ih⟩
  | failed => exact List.cons_prefix_cons.mpr ⟨rfl, List.nil_prefix⟩

theorem effects (h : plan.Course libs runner stages p passages result p') :
    ∀ x ∈ passages, x.Effects plan libs runner := by
  induction h with
  | done => exact fun x hx => by cases hx
  | passed hs _ ih => exact List.forall_mem_cons.mpr ⟨hs.effects, ih⟩
  | failed hs => exact List.forall_mem_cons.mpr ⟨hs.effects, List.forall_mem_nil _⟩

/-- **Behind a stage that fails there is nothing**, so that all ahead of any stage have succeeded. -/
theorem stops (h : plan.Course libs runner stages p passages result p') {before after : List (Passage σ)}
    {x : Passage σ} (hx : passages = before ++ x :: after) : (∀ y ∈ before, y.result = .ok ()) ∧
      ∀ e, x.result = .error e → after = [] ∧ result = .error e ∧ p' = x.after := by
  induction h generalizing before with
  | done => exact absurd hx.symm (List.append_ne_nil_of_right_ne_nil _ (List.cons_ne_nil _ _))
  | passed _ _ ih =>
      cases before with
      | nil =>
          cases hx
          exact ⟨List.forall_mem_nil _, fun e he => by cases he⟩
      | cons first before =>
          cases hx
          obtain ⟨hok, herror⟩ := ih rfl
          exact ⟨List.forall_mem_cons.mpr ⟨rfl, hok⟩, herror⟩
  | failed =>
      cases before with
      | nil =>
          cases hx
          refine ⟨List.forall_mem_nil _, fun e he => ?_⟩
          cases he
          exact ⟨rfl, rfl, rfl⟩
      | cons first before =>
          have hnil := (List.cons.inj hx).2
          exact absurd hnil.symm (List.append_ne_nil_of_right_ne_nil _ (List.cons_ne_nil _ _))

theorem fails (h : plan.Course libs runner stages p passages result p') {e : RunError} (he : result = .error e) :
    ∃ before x, passages = before ++ [x] ∧ x.result = .error e := by
  induction h with
  | done => cases he
  | passed _ _ ih =>
      obtain ⟨before, x, rfl, hx⟩ := ih he
      exact ⟨_ :: before, x, rfl, hx⟩
  | failed => exact ⟨[], _, rfl, he⟩

theorem succeeds (h : plan.Course libs runner stages p passages result p') :
    result = .ok () ↔ passages.map Passage.stage = stages ∧ ∀ x ∈ passages, x.result = .ok () := by
  induction h with
  | done => exact ⟨fun _ => ⟨rfl, List.forall_mem_nil _⟩, fun _ => rfl⟩
  | passed _ _ ih =>
      rw [ih, List.map_cons, List.cons_eq_cons, List.forall_mem_cons]
      exact ⟨fun ⟨hstages, hok⟩ => ⟨⟨rfl, hstages⟩, rfl, hok⟩, fun ⟨⟨_, hstages⟩, _, hok⟩ => ⟨hstages, hok⟩⟩
  | failed => exact ⟨fun h => (by cases h), fun h => absurd (h.2 _ List.mem_cons_self) fun he => by cases he⟩

end Plan.Course

/-- What holds of the passages of a run through the stages of a plan. -/
structure Orderly (plan : Plan) (libs : Libraries σ) (runner : Runner σ) (p : Progress σ)
    (passages : List (Passage σ)) (result : Except RunError Unit) (p' : Progress σ) : Prop where
  /-- The stages are passed through in the order of the plan, -/
  stages : passages.map Passage.stage <+: plan.stages
  /-- one behind the other, with nothing in between but the report of each, -/
  linked : Linked p passages p'
  /-- and each changes what is its own to change. -/
  effects : ∀ x ∈ passages, x.Effects plan libs runner
  /-- Tools are invoked in their order. -/
  tools : ∃ invoked, p'.invoked = p.invoked ++ invoked ∧ invoked <+: plan.tools
  /-- The run itself works on files behind the installation and ahead of the formatting. -/
  files : ∀ before x after, passages = before ++ x :: after → x.stage.tool? = none → x.stage ≠ .commit →
    (∃ y ∈ before, y.stage = .install ∧ y.result = .ok ()) ∧ ∀ y ∈ before, y.stage ≠ .format
  /-- It works on the repositories behind the formatting, if it is to commit. -/
  repository : ∀ before x after, passages = before ++ x :: after → x.stage = .commit →
    plan.request.noCommit = false ∧ ∃ y ∈ before, y.stage = .format ∧ y.result = .ok ()
  /-- Behind a stage that fails there is nothing. -/
  stops : ∀ before x after e, passages = before ++ x :: after → x.result = .error e →
    after = [] ∧ result = .error e ∧ p' = x.after
  /-- The run fails only by its last stage, -/
  fails : ∀ e, result = .error e → ∃ before x, passages = before ++ [x] ∧ x.result = .error e
  /-- and succeeds exactly if it has passed through all stages and all have succeeded. -/
  succeeds : result = .ok () ↔ passages.map Passage.stage = plan.stages ∧ ∀ x ∈ passages, x.result = .ok ()
  /-- Then it has committed, unless it was not to or there was nothing to commit. -/
  commit : result = .ok () →
    (p'.commit = p.commit ∧ (plan.request.noCommit = true ∨ ∃ x ∈ passages, x.stage = .commit ∧
      ∃ path, (plan.commitIn libs.git x.before.workspace).2 = .error (.nothingToCommit path))) ∨
    plan.request.noCommit = false ∧ ∃ x ∈ passages, x.stage = .commit ∧
      ∃ c, (plan.commitIn libs.git x.before.workspace).2 = .ok c ∧ p'.commit = some c

/-- **Every course through the stages of a plan is in order.** -/
theorem Plan.Course.orderly {p p' : Progress σ} {passages : List (Passage σ)} {result : Except RunError Unit}
    (h : plan.Course libs runner plan.stages p passages result p') : Orderly plan libs runner p passages result p' := by
  have hahead : ∀ {before x after}, passages = before ++ x :: after → ∀ {stage : Stage}, stage ∈ plan.stages →
      stage.number < x.stage.number → ∃ y ∈ before, y.stage = stage ∧ y.result = .ok () := by
    intro before x after hx stage hm hn
    have hprefix := h.stages_prefix
    rw [hx, List.map_append, List.map_cons] at hprefix
    obtain ⟨y, hy, hstage⟩ := List.mem_map.mp (Plan.mem_before hprefix hm hn)
    exact ⟨y, hy, hstage, (h.stops hx).1 y hy⟩
  refine ⟨h.stages_prefix, h.linked, h.effects, ?tools, ?files, ?repository, fun _ _ _ e hx => (h.stops hx).2 e,
    fun _ => h.fails, h.succeeds, ?commit⟩
  case tools =>
    refine ⟨_, h.linked.invoked h.effects, ?_⟩
    have htools := h.stages_prefix.filterMap fun s => s.tool?.map plan.invocation
    rwa [List.filterMap_map, plan.tools_eq] at htools
  case files =>
    intro before x after hx htool hcommit
    obtain ⟨hinstall, hformat⟩ := Stage.number_files htool hcommit
    refine ⟨hahead hx plan.mem_stages.1 hinstall, fun y hy hstage => ?_⟩
    have hprefix := h.stages_prefix
    rw [hx, List.map_append, List.map_cons] at hprefix
    exact Plan.not_mem_before hprefix hformat (hstage ▸ List.mem_map_of_mem hy)
  case repository =>
    intro before x after hx hcommit
    have hmem : .commit ∈ plan.stages := by
      rw [← hcommit]
      refine h.stages_prefix.subset (List.mem_map_of_mem ?_)
      rw [hx]
      exact List.mem_append_right _ List.mem_cons_self
    obtain ⟨front, hfront, ⟨-, hstages⟩ | ⟨hno, -⟩⟩ := plan.stages_commit
    · rw [hstages] at hmem
      exact absurd hmem hfront
    · exact ⟨hno, hahead hx plan.mem_stages.2 (by rw [hcommit]; decide)⟩
  case commit =>
    intro hok
    obtain ⟨hall, hresults⟩ := h.succeeds.mp hok
    obtain ⟨front, hfront, ⟨hno, hstages⟩ | ⟨hno, hstages⟩⟩ := plan.stages_commit
    · refine .inl ⟨h.linked.commit h.effects fun x hx hcommit => hfront ?_, .inl hno⟩
      rw [← hstages, ← hall, ← hcommit]
      exact List.mem_map_of_mem hx
    · -- The last stage commits, and no other.
      rw [hstages] at hall
      obtain ⟨init, last, rfl, rfl, hlast⟩ := List.map_eq_append_iff.mp hall
      obtain ⟨x, rfl, hcommit⟩ := List.map_eq_singleton_iff.mp hlast
      have hx : x ∈ init ++ [x] := List.mem_append_right _ List.mem_cons_self
      obtain ⟨⟨q, hlinked, hbefore⟩, rfl⟩ := h.linked.concat
      have hkept := hlinked.commit (fun y hy => h.effects y (List.mem_append_left _ hy)) fun y hy hstage =>
        hfront (hstage ▸ List.mem_map_of_mem hy)
      rcases (h.effects x hx).committed hcommit (hresults x hx) with ⟨c, hc, hnew⟩ | ⟨path, hnothing, hold⟩
      · exact .inr ⟨hno, x, hx, hcommit, c, hc, hnew⟩
      · refine .inl ⟨?_, .inr ⟨x, hx, hcommit, path, hnothing⟩⟩
        rw [hold, hbefore, ← hkept]
        rfl

/-- **Every run is in order**, whatever the tools answer and however the writers take turns: what a run does is a
    course, and a course is cut short by its preparation, which changes nothing, or is an orderly one through the stages
    of a plan. -/
theorem Request.run_orderly (r : Request) (config : Config) (libs : Libraries σ) (runner : Runner σ) (p : Progress σ) :
    (∃ passages, r.Course config libs runner p passages ((r.run config libs runner).run p).1
      ((r.run config libs runner).run p).2) ∧
    ∀ passages result p', r.Course config libs runner p passages result p' →
      (passages = [] ∧ p.Idle p' ∧ ∃ e, result = .error e) ∨
      ∃ plan p₁ outcome, plan.request = r ∧ plan.config = config ∧ p.Idle p₁ ∧ result = outcome.map (fun _ => plan) ∧
        Orderly plan libs runner p₁ passages outcome p' := by
  refine ⟨r.course_run config libs runner p, fun passages result p' h => ?_⟩
  obtain ⟨made, p₁, hmake, hidle, hprepared⟩ := Plan.make_outcome libs.templates config r p
  cases h with
  | rejected h =>
      rw [hmake] at h
      cases h
      exact .inl ⟨rfl, hidle, _, rfl⟩
  | planned h more =>
      rw [hmake] at h
      cases h
      cases hprepared
      exact .inr ⟨_, p₁, _, rfl, rfl, hidle, rfl, more.orderly⟩

end RouteScaffold
