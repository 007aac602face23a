import RouteScaffold.Proofs.Run.Order

/-!
# Parts of a course

A course through stages is one through the first of them and one through the others.

* `Plan.Course.append_ok`, `Plan.Course.arrives`: courses taken apart;
* `Plan.stages_around`, `Plan.stages_eq`: the stages of a plan taken apart;
* `Plan.Performs.harmless`: a stage that a tool serves which changes nothing.
-/

namespace RouteScaffold

variable {σ : Type} {plan : Plan} {libs : Libraries σ} {runner : Runner σ}

/-! ## 1. Courses -/

namespace Plan

theorem announced_workspace (stage : Stage) (p : Progress σ) : (announced stage p).workspace = p.workspace := rfl

namespace Course

theorem cons_ok {stage : Stage} {rest : List Stage} {p p' : Progress σ} {passages : List (Passage σ)}
    (h : plan.Course libs runner (stage :: rest) p passages (.ok ()) p') : ∃ p₁ more,
      plan.Performs libs runner (announced stage p) stage (.ok ()) p₁ ∧
        plan.Course libs runner rest p₁ more (.ok ()) p' := by
  cases h with
  | passed hs hmore => exact ⟨_, _, hs, hmore⟩

/-- A course that succeeds goes on from where one through its first stages ends. -/
theorem append_ok {front back : List Stage} {p p' : Progress σ} {passages : List (Passage σ)}
    (h : plan.Course libs runner (front ++ back) p passages (.ok ()) p') : ∃ q first more,
      plan.Course libs runner front p first (.ok ()) q ∧ plan.Course libs runner back q more (.ok ()) p' := by
  induction front generalizing p passages with
  | nil => exact ⟨p, [], passages, .done p, h⟩
  | cons stage rest ih =>
      cases h with
      | passed hs hmore =>
          obtain ⟨q, first, more, hfirst, hback⟩ := ih hmore
          exact ⟨q, _, more, .passed hs hfirst, hback⟩

/-- **A course that arrives at a stage has passed through those ahead of it.** -/
theorem arrives {front back : List Stage} {stage : Stage} {p p' : Progress σ} {passages : List (Passage σ)}
    {result : Except RunError Unit} (h : plan.Course libs runner (front ++ stage :: back) p passages result p')
    (hf : stage ∉ front) (hb : stage ∉ back) {x : Passage σ} (hx : x ∈ passages) (hs : x.stage = stage) : ∃ q first,
      plan.Course libs runner front p first (.ok ()) q ∧ x.before = announced stage q ∧
        plan.Performs libs runner x.before stage x.result x.after := by
  induction front generalizing p passages with
  | nil =>
      rw [List.nil_append] at h
      refine ⟨p, [], .done p, ?_⟩
      cases h with
      | passed hperforms hmore =>
          rcases List.mem_cons.mp hx with rfl | hx
          · exact ⟨rfl, hperforms⟩
          · have hmem := hmore.stages_prefix.subset (List.mem_map_of_mem hx)
            rw [hs] at hmem
            exact absurd hmem hb
      | failed hperforms =>
          rw [List.mem_singleton.mp hx]
          exact ⟨rfl, hperforms⟩
  | cons other rest ih =>
      rw [List.mem_cons, not_or] at hf
      rw [List.cons_append] at h
      cases h with
      | passed hperforms hmore =>
          rcases List.mem_cons.mp hx with rfl | hx
          · exact absurd hs.symm hf.1
          · obtain ⟨q, first, hfirst, hrest⟩ := ih hmore hf.2 hx
            exact ⟨q, _, .passed hperforms hfirst, hrest⟩
      | failed =>
          rw [List.mem_singleton.mp hx] at hs
          exact absurd hs.symm hf.1

end Course

end Plan

/-! ## 2. Stages that tools serve -/

/-- Tools that succeed and change nothing. -/
def Runner.Harmless (runner : Runner σ) : Prop :=
  ∀ w i, (runner w i).workspace = w ∧ (runner w i).ending = .ok (.status 0)

namespace Plan

/-- A stage that a harmless tool serves. -/
theorem Performs.harmless {stage : Stage} {p p' : Progress σ} {result : Except RunError Unit}
    (h : plan.Performs libs runner p stage result p') (hr : runner.Harmless) {t : ToolStage}
    (ht : stage.tool? = some t) :
    result = .ok () ∧ p'.workspace = p.workspace := by
  have hrun := h.eq_perform (by rintro rfl; cases ht) (by rintro rfl; cases ht)
  obtain ⟨hworkspace, hending⟩ := hr p.workspace (plan.invocation t)
  rw [perform_tool ht, run_runTool, ToolError.ofEnding?_eq_none.mpr hending] at hrun
  cases hrun
  exact ⟨rfl, hworkspace⟩

/-! ## 3. All stages -/

/-- The stages of a plan around the directories. -/
theorem stages_around (plan : Plan) : ∃ front back, .directories ∉ front ∧ .directories ∉ back ∧
    plan.stages = front ++ writing ++ .directories :: back := by
  refine ⟨(if plan.request.skipCreation then [] else [.bootstrap]) ++ [.install, .cleanup],
    .format :: (if plan.request.noCommit then [] else [.commit]), ?_, ?_, ?_⟩
  · cases plan.request.skipCreation with
    | false => decide
    | true => decide
  · cases plan.request.noCommit with
    | false => decide
    | true => decide
  · simp [stages, writing]

theorem stages_eq (hs : plan.request.skipCreation = true) (hn : plan.request.noCommit = true) :
    plan.stages = .install :: .cleanup :: (writing ++ [.directories, .format]) := by
  rw [stages, hs, hn]
  rfl

end Plan

end RouteScaffold
