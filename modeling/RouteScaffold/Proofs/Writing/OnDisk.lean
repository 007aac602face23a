import RouteScaffold.Proofs.Files.Effects
import RouteScaffold.Proofs.Writing.Failures

/-!
# Writers on a disk

On a disk every operation changes what the next one finds (`Carries`). What writers side by side leave of a disk is what
one of their interleavings leaves (`Groups.Writes`).

* `Groups.writes_write`: carrying out a plan task by task is one of the interleavings, also when a task fails;
* `Groups.Writes.left`: when no task fails each leaves what it is to leave.
-/

namespace RouteScaffold

open Writers

/-! ## 1. Interleavings on a disk -/

/-- Operations change a disk one after the other, each with the answer that the disk gives. -/
inductive Carries : Disk → List (Performed FileError) → Disk → Prop where
  | refl (d : Disk) : Carries d [] d
  | done {d d' : Disk} {o : Operation} {events : List (Performed FileError)} (h : (o.task.perform.run d).1 = .ok ())
      (more : Carries (o.task.perform.run d).2 events d') : Carries d (⟨o, none⟩ :: events) d'
  | failed {d d' : Disk} {o : Operation} {e : FileError} {events : List (Performed FileError)}
      (h : (o.task.perform.run d).1 = .error e) (more : Carries (o.task.perform.run d).2 events d') :
      Carries d (⟨o, some e⟩ :: events) d'

/-- **Writers side by side carry out a plan on a disk**, in some interleaving, and give a result. -/
def Groups.Writes (root : String) (g : Groups) (d : Disk) (result : Except FileError Nat) (d' : Disk) : Prop :=
  ∃ events w, Run (start (g.under root)) events w ∧ Carries d events d' ∧ w.Returns result

/-! ## 2. One after the other -/

/-- Tasks that succeed one after the other are carried out. -/
theorem carries_of_forM {todo : List Operation} {d : Disk}
    (h : ((forM (todo.map Operation.task) Task.perform).run d).1 = .ok ()) :
    Carries d (todo.map fun o => ⟨o, none⟩) ((forM (todo.map Operation.task) Task.perform).run d).2 := by
  induction todo generalizing d with
  | nil => exact .refl _
  | cons o more ih =>
      simp only [List.map_cons, List.forM_cons] at h ⊢
      rcases hanswer : o.task.perform.run d with ⟨e | ⟨⟩, d₁⟩
      · rw [run_bind_of_error hanswer] at h
        cases h
      · rw [run_bind_of_ok hanswer] at h ⊢
        refine .done (congrArg Prod.fst hanswer) ?_
        rw [hanswer]
        exact ih h

/-- A run whose tasks succeed in its order on a disk. -/
theorem Groups.writes_of_run {root : String} {g : Groups} {todo : List Operation} {w : Writers FileError}
    {result : Except FileError Nat} {d : Disk} (hrun : Run (start (g.under root)) (todo.map fun o => ⟨o, none⟩) w)
    (hreturns : w.Returns result) (hdisk : ((forM (todo.map Operation.task) Task.perform).run d).1 = .ok ()) :
    g.Writes root d result ((forM (todo.map Operation.task) Task.perform).run d).2 :=
  ⟨_, w, hrun, carries_of_forM hdisk, hreturns⟩

/-- When an operation has failed of writers that had not, its error can be returned. -/
theorem Writers.Step.returns {w w' : Writers FileError} {o : Operation} {e : FileError}
    (h : Step [] 0 w ⟨o, some e⟩ w') (hs : w.raised = []) : ∃ w'', Run w' [] w'' ∧ w''.Returns (.error e) := by
  have hraised : e ∈ w'.raised := (h.mem_raised e).mpr (.inr rfl)
  obtain ⟨w'', hups, herrors⟩ := errors_reached (List.ne_nil_of_mem hraised)
  obtain ⟨e', he'⟩ := List.exists_mem_of_ne_nil _ herrors
  have hrun := run_of_givesUp hups
  -- No other error has been raised.
  have hsame : e' = e := by
    rcases hrun.raised.1 e' (raised_of_errors e' he') with hmem | ⟨_, hp, -⟩
    · rcases (h.mem_raised e').mp hmem with hmem | hanswer
      · rw [hs] at hmem
        cases hmem
      · exact (Option.some_inj.mp hanswer).symm
    · cases hp
  rw [hsame] at he'
  exact ⟨w'', hrun, .error he'⟩

theorem Writers.Sound.raised {w : Writers FileError} (h : w.Sound) : w.raised = [] := by
  induction w with
  | nil => rfl
  | working task left files nested rest ih => exact ih h
  | joining files below rest ihb ih => rw [Writers.raised, ihb h.1, ih h.2, List.append_nil]
  | failed => exact h.elim

/-- Operations carried out in order, up to the first that fails, are a run. -/
theorem writes_in_order {todo : List Operation} {w : Writers FileError} {d d' : Disk} {result : Except FileError Unit}
    (hs : w.Sound) (hw : w.operations [] 0 = todo)
    (h : (forM (todo.map Operation.task) Task.perform).run d = (result, d')) :
    ∃ events w', Run w events w' ∧ Carries d events d' ∧
      w'.Returns (result.map fun _ => w.counts.foldr (· + ·) 0) := by
  induction todo generalizing w d with
  | nil =>
      cases h
      exact ⟨[], w, .refl w, .refl _, .ok ((counts?_eq_some_iff [] 0 hs _).mpr ⟨hw, rfl⟩)⟩
  | cons o more ih =>
      rw [List.map_cons, List.forM_cons] at h
      rcases hanswer : o.task.perform.run d with ⟨e | ⟨⟩, d₁⟩
      · have hfail := (run_bind_of_error hanswer).symm.trans h
        cases hfail
        obtain ⟨w', hstep⟩ := awaits_first hs hw (some e)
        obtain ⟨w'', hrun, hreturns⟩ := hstep.returns hs.raised
        refine ⟨_, w'', .perform hstep hrun, .failed (congrArg Prod.fst hanswer) ?_, hreturns⟩
        rw [hanswer]
        exact .refl _
      · have hmore := (run_bind_of_ok hanswer).symm.trans h
        obtain ⟨w', hstep⟩ := awaits_first hs hw none
        obtain ⟨hsound, hcounts, htakes⟩ := hstep.proceeds rfl hs
        rw [hw] at htakes
        obtain ⟨events, w'', hrun, hcarries, hreturns⟩ := ih hsound htakes.left_eq hmore
        rw [hcounts] at hreturns
        refine ⟨_, w'', .perform hstep hrun, .done (congrArg Prod.fst hanswer) ?_, hreturns⟩
        rw [hanswer]
        exact hcarries

/-- **Carrying out a plan task by task is one of the interleavings**, whatever the disk answers. -/
theorem Groups.writes_write (root : String) (g : Groups) (d : Disk) :
    g.Writes root d ((g.write root).run d).1 ((g.write root).run d).2 := by
  have hwrite : g.write root = forM (((g.under root).operations [] 0).map Operation.task) Task.perform >>=
      fun _ => pure g.count := by
    rw [Groups.task_operations, Groups.tasks_under, List.forM_map, Groups.write, Groups.writeTo, List.forM_eq_forM]
  rcases htasks : (forM (((g.under root).operations [] 0).map Operation.task) Task.perform).run d with ⟨result, d'⟩
  obtain ⟨events, w, hrun, hcarries, hreturns⟩ :=
    writes_in_order (sound_start (g.under root)) (operations_start [] 0 (g.under root)) htasks
  rw [counts_start, Groups.counts_under] at hreturns
  refine ⟨events, w, hrun, ?_⟩
  rw [hwrite]
  cases result with
  | error e =>
      rw [run_bind_of_error htasks]
      exact ⟨hcarries, hreturns⟩
  | ok =>
      rw [run_bind_of_ok htasks]
      exact ⟨hcarries, hreturns⟩

theorem Groups.writes_of_write {root : String} {g : Groups} {d : Disk} {result : Except FileError Nat}
    (h : ((g.write root).run d).1 = result) : g.Writes root d result ((g.write root).run d).2 := by
  rw [← h]
  exact g.writes_write root d

/-! ## 3. What is left -/

theorem Carries.left {events : List (Performed FileError)} {d d' : Disk} (h : Carries d events d')
    (he : ∀ p ∈ events, p.error = none) : Left (events.map fun p => p.operation.task) d d' := by
  induction h with
  | refl d => exact .nil d
  | done hanswer _ ih =>
      rw [List.forall_mem_cons] at he
      exact (left_perform (Prod.ext hanswer rfl)).append (ih he.2)
  | failed => cases he _ List.mem_cons_self

/-- **When the writers of a plan have all finished**, each task has left what it is to leave. -/
theorem Groups.Writes.left {root : String} {g : Groups} {d d' : Disk} {n : Nat} (h : g.Writes root d (.ok n) d') :
    n = g.count ∧ ∃ tasks, tasks.Perm (g.under root).tasks ∧ Left tasks d d' := by
  obtain ⟨events, w, hrun, hcarries, hreturns⟩ := h
  have hok : ∀ p ∈ events, p.error = none := by
    intro p hp
    by_contra hne
    cases hreturns with
    | ok hcounts => exact hrun.raised.2 (.inr ⟨p, hp, hne⟩) (raised_of_counts? hcounts)
  obtain ⟨hresult, hperm, -⟩ := (inOrder_of_run hrun hok).returns _ hreturns
  refine ⟨?_, _, hperm, hcarries.left hok⟩
  rw [Groups.count, Groups.counts_under] at hresult
  exact Except.ok.inj hresult

end RouteScaffold
