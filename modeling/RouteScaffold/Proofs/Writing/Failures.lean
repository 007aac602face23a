import Mathlib.Logic.Relation
import RouteScaffold.Proofs.Writing.Interleavings

/-!
# What holds when operations fail

A sink may answer any operation with an error. Its writer then gives up, and so do those that wait for it, while the
writers beside may go on until the error is returned.

* `Reached`: how the operations that have happened and those that are left make up the plan; every answer keeps this,
  and so does giving up;
* `Due`: the operations that writers ask for are those that are due;
* `disciplined_of_run`: what holds in every run, whatever the sink answers.
-/

namespace RouteScaffold

open Writers

variable {ε : Type}

/-! ## 1. What has happened and what is left -/

/-- The operations that have happened and those that are left, of all that were to be done. -/
structure Reached (todo : List Operation) (events : List (Performed ε)) (left : List Operation) : Prop where
  sublist : left.Sublist todo
  /-- Of a directory the first operations have happened, and what is left of it comes next. -/
  own : ∀ position, performedAt events position ++ left.filter (fun o => o.position = position) <+:
    todo.filter fun o => o.position = position
  /-- Of the directories above what is left nothing is given up. -/
  whole : ∀ o ∈ left, ∀ outer, Position.Covers outer o.position →
    performedAt events outer ++ left.filter (fun o => o.position = outer) = todo.filter fun o => o.position = outer

/-- Nothing has failed in the directories above what is left. -/
def Unfailed (events : List (Performed ε)) (left : List Operation) : Prop :=
  ∀ o ∈ left, ∀ e ∈ events, Position.Covers e.operation.position o.position → e.error = none

section Kept

variable {todo left left' : List Operation} {events : List (Performed ε)} {p : Performed ε}

theorem Reached.start (todo : List Operation) : Reached todo ([] : List (Performed ε)) todo :=
  ⟨.refl _, fun _ => List.prefix_rfl, fun _ _ _ _ => rfl⟩

theorem Reached.take {behind : List Operation} (h : Reached todo events left) (ht : Takes left p.operation behind) :
    Reached todo (events ++ [p]) behind := by
  have hown : ∀ position, performedAt (events ++ [p]) position ++ behind.filter (fun o => o.position = position) =
      performedAt events position ++ left.filter fun o => o.position = position := by
    intro position
    rw [ht.filter_eq position, performedAt_append, List.append_assoc, performedAt_singleton]
  refine ⟨ht.sublist.trans h.sublist, fun position => ?_, fun o ho outer hc => ?_⟩
  · rw [hown]
    exact h.own position
  · rw [hown]
    exact h.whole o (ht.sublist.subset ho) outer hc

theorem Reached.giveUp (h : Reached todo events left) (position : Position) :
    Reached todo events (spared position left) := by
  refine ⟨List.filter_sublist.trans h.sublist, fun outer => ?_, fun o ho outer hc => ?_⟩
  · by_cases hp : Position.Covers position outer
    · rw [filter_spared_of_covers hp, List.append_nil]
      exact (List.prefix_append _ _).trans (h.own outer)
    · rw [filter_spared hp]
      exact h.own outer
  · obtain ⟨ho, hp⟩ := mem_spared.mp ho
    rw [filter_spared fun hout => hp (hout.trans hc)]
    exact h.whole o ho outer hc

/-- **Every answer keeps what is known.** -/
theorem Reached.answer (h : Reached todo events left) (ha : Answers left p left') :
    Reached todo (events ++ [p]) left' := by
  obtain ⟨behind, htakes, rfl⟩ := ha
  unfold Performed.leaves
  cases p.error with
  | none => exact h.take htakes
  | some e => exact (h.take htakes).giveUp _

theorem Unfailed.giveUp (h : Unfailed events left) (position : Position) : Unfailed events (spared position left) :=
  fun o ho => h o (mem_spared.mp ho).1

theorem Unfailed.answer (h : Unfailed events left) (ha : Answers left p left') : Unfailed (events ++ [p]) left' := by
  obtain ⟨behind, htakes, rfl⟩ := ha
  have hbehind : Unfailed events behind := fun o ho => h o (htakes.sublist.subset ho)
  intro o ho e he hc
  unfold Performed.leaves at ho
  cases hp : p.error with
  | none =>
      rw [hp] at ho
      rcases List.mem_append.mp he with he | he
      · exact hbehind o ho e he hc
      · rw [List.mem_singleton.mp he, hp]
  | some error =>
      rw [hp] at ho
      obtain ⟨ho, hne⟩ := mem_spared.mp ho
      rcases List.mem_append.mp he with he | he
      · exact hbehind o ho e he hc
      · rw [List.mem_singleton.mp he] at hc
        exact absurd hc hne

end Kept

/-- **Every run keeps what is known.** -/
theorem Writers.Run.reached {todo : List Operation} {past events : List (Performed ε)} {w w' : Writers ε}
    (h : Run w events w') (hr : Reached todo past (w.operations [] 0)) (hu : Unfailed past (w.operations [] 0)) :
    Reached todo (past ++ events) (w'.operations [] 0) ∧ Unfailed (past ++ events) (w'.operations [] 0) := by
  induction h generalizing past with
  | refl w =>
      rw [List.append_nil]
      exact ⟨hr, hu⟩
  | @perform _ _ _ p events hs _ ih =>
      rw [List.append_cons]
      exact ih (hr.answer hs.answers) (hu.answer hs.answers)
  | giveUp hg _ ih =>
      obtain ⟨position, _, -, -, hleft⟩ := hg.spares [] 0
      refine ih ?_ ?_
      · rw [hleft]
        exact hr.giveUp position
      · rw [hleft]
        exact hu.giveUp position

/-! ## 2. What is due -/

/-- An operation of a plan is the next of its directory, those of the directories that it hangs off have all happened,
    and nothing has failed in any of these. -/
structure Due (plan : Groups) (events : List (Performed ε)) (o : Operation) : Prop where
  next : ∃ p ∈ plan.planned [] 0, o ∈ p.operations ∧ performedAt events p.position ++ [o] <+: p.operations
  enclosing : ∀ outer ∈ plan.planned [] 0, Position.Covers outer.position o.position → outer.position ≠ o.position →
    performedAt events outer.position = outer.operations
  unfailed : ∀ e ∈ events, Position.Covers e.operation.position o.position → e.error = none

/-- **What is taken of a plan is due.** -/
theorem Reached.due {plan : Groups} {events : List (Performed ε)} {left behind : List Operation} {o : Operation}
    (h : Reached (plan.operations [] 0) events left) (hu : Unfailed events left) (ht : Takes left o behind) :
    Due plan events o := by
  refine ⟨?next, fun outer hp hc hne => ?enclosing, hu o ht.mem⟩
  case next =>
    obtain ⟨p, hp, ho⟩ := List.mem_flatMap.mp (h.sublist.subset ht.mem)
    have hposition := Groups.position_operations ho
    have hown := h.own p.position
    rw [ht.filter_eq, if_pos hposition, Groups.filter_operations hp, ← List.append_assoc] at hown
    exact ⟨p, hp, ho, (List.prefix_append _ _).trans hown⟩
  case enclosing =>
    have hwhole := h.whole o ht.mem outer.position hc
    have hordered := (Groups.pairwise_operations [] 0 plan).sublist h.sublist
    rw [ht.enclosing_none hordered hc hne, List.append_nil, Groups.filter_operations hp] at hwhole
    exact hwhole

theorem Writers.Run.reached_start {plan : Groups} {events : List (Performed ε)} {w : Writers ε}
    (h : Run (start plan) events w) :
    Reached (plan.operations [] 0) events (w.operations [] 0) ∧ Unfailed events (w.operations [] 0) := by
  have hstart : Reached (plan.operations [] 0) ([] : List (Performed ε))
      ((start plan : Writers ε).operations [] 0) := by
    rw [operations_start]
    exact .start _
  exact h.reached hstart fun _ _ _ he => by cases he

/-- **What is awaited is due.** -/
theorem Writers.Run.due {plan : Groups} {events : List (Performed ε)} {w w' : Writers ε} {p : Performed ε}
    (h : Run (start plan) events w) (hs : Step [] 0 w p w') : Due plan events p.operation := by
  obtain ⟨hreached, hunfailed⟩ := h.reached_start
  obtain ⟨_, htakes, -⟩ := hs.answers
  exact hreached.due hunfailed htakes

/-! ## 3. Errors -/

namespace Writers

/-- The errors of the writers that have given up, those that others still wait for included. -/
def raised : Writers ε → List ε
  | .nil => []
  | .working _ _ _ _ rest => rest.raised
  | .joining _ below rest => below.raised ++ rest.raised
  | .failed error rest => error :: rest.raised

theorem raised_start (g : Groups) : (start g : Writers ε).raised = [] := by
  induction g with
  | nil => rfl
  | group directory files nested rest _ ih => exact ih

theorem raised_proceed (files : Nat) (nested : Groups) (rest : Writers ε) (left : List Task) :
    (proceed files nested rest left).raised = rest.raised := by
  cases left with
  | nil => rw [proceed, raised, raised_start, List.nil_append]
  | cons task left => rfl

theorem raised_of_errors {w : Writers ε} : ∀ e ∈ w.errors, e ∈ w.raised := by
  induction w with
  | nil => exact fun e he => he
  | working task left files nested rest ih => exact ih
  | joining files below rest _ ih => exact fun e he => List.mem_append_right _ (ih e he)
  | failed error rest ih => exact fun e he => List.mem_cons.mpr ((List.mem_cons.mp he).imp_right (ih e))

/-- Where writers have finished none has given up. -/
theorem raised_of_counts? {w : Writers ε} {counts : List Nat} (h : w.counts? = some counts) : w.raised = [] := by
  induction w generalizing counts with
  | nil => rfl
  | working => cases h
  | joining files below rest ihb ih =>
      obtain ⟨_, hbelow, h⟩ := Option.bind_eq_some_iff.mp h
      obtain ⟨_, hrest, -⟩ := Option.map_eq_some_iff.mp h
      rw [raised, ihb hbelow, ih hrest, List.append_nil]
  | failed => cases h

/-- **A step raises the error of its answer**, and no other. -/
theorem Step.mem_raised {above : Position} {i : Nat} {w w' : Writers ε} {p : Performed ε} (h : Step above i w p w')
    (e : ε) : e ∈ w'.raised ↔ e ∈ w.raised ∨ p.error = some e := by
  induction h with
  | done => simp [raised_proceed, raised]
  | fail => simp [raised, or_comm, eq_comm]
  | nested _ ih => simp [raised, ih, or_right_comm]
  | besideWorking _ ih => simp [raised, ih]
  | besideJoining _ ih => simp [raised, ih, or_assoc]
  | besideFailed _ ih => simp [raised, ih, or_assoc]

/-- **Giving up raises no other error**, and keeps one. -/
theorem GivesUp.raised_subset {w w' : Writers ε} (h : GivesUp w w') :
    w'.raised ⊆ w.raised ∧ w'.raised ≠ [] := by
  induction h with
  | @join _ below rest e he =>
      refine ⟨?_, List.cons_ne_nil _ _⟩
      exact List.cons_subset.mpr ⟨List.mem_append_left _ (raised_of_errors e he), List.subset_append_right _ _⟩
  | nested _ ih =>
      refine ⟨List.append_subset.mpr ⟨List.Subset.trans ih.1 (List.subset_append_left _ _),
        List.subset_append_right _ _⟩, ?_⟩
      exact fun hn => ih.2 (List.append_eq_nil_iff.mp hn).1
  | besideWorking _ ih => exact ih
  | besideJoining _ ih =>
      refine ⟨List.append_subset.mpr ⟨List.subset_append_left _ _,
        List.Subset.trans ih.1 (List.subset_append_right _ _)⟩, ?_⟩
      exact fun hn => ih.2 (List.append_eq_nil_iff.mp hn).2
  | besideFailed _ ih => exact ⟨List.cons_subset_cons _ ih.1, List.cons_ne_nil _ _⟩

end Writers

/-! ## 4. Going on -/

/-- How often the writers of a plan are answered or wait for others. -/
def Groups.weight : Groups → Nat
  | .nil => 0
  | .group _ files nested rest => files.length + 2 + nested.weight + rest.weight

namespace Writers

/-- A writer is answered or gives up. -/
def Moves (w w' : Writers ε) : Prop := GivesUp w w' ∨ ∃ p, Step [] 0 w p w'

/-- How often writers are still answered or give up at most. -/
def weight : Writers ε → Nat
  | .nil => 0
  | .working _ left _ nested rest => left.length + 2 + nested.weight + rest.weight
  | .joining _ below rest => 1 + below.weight + rest.weight
  | .failed _ rest => rest.weight

theorem weight_start (g : Groups) : (start g : Writers ε).weight = g.weight := by
  induction g with
  | nil => rfl
  | group directory files nested rest _ ih => rw [start, weight, Groups.weight, ih, List.length_map]

theorem Step.weight_lt {above : Position} {i : Nat} {w w' : Writers ε} {p : Performed ε} (h : Step above i w p w') :
    w'.weight < w.weight := by
  induction h with
  | @done _ _ _ left _ nested rest =>
      cases left with
      | nil =>
          rw [proceed, weight, weight, weight_start, List.length_nil]
          omega
      | cons task left =>
          rw [proceed, weight, weight, List.length_cons]
          omega
  | fail e =>
      rw [weight, weight]
      omega
  | nested _ ih =>
      rw [weight, weight]
      omega
  | besideWorking _ ih =>
      rw [weight, weight]
      omega
  | besideJoining _ ih =>
      rw [weight, weight]
      omega
  | besideFailed _ ih => exact ih

theorem GivesUp.weight_lt {w w' : Writers ε} (h : GivesUp w w') : w'.weight < w.weight := by
  induction h with
  | join he =>
      rw [weight, weight]
      omega
  | nested _ ih =>
      rw [weight, weight]
      omega
  | besideWorking _ ih =>
      rw [weight, weight]
      omega
  | besideJoining _ ih =>
      rw [weight, weight]
      omega
  | besideFailed _ ih => exact ih

/-- **Writers do not move for ever.** -/
theorem wellFounded_moves : WellFounded fun w' w : Writers ε => Moves w w' :=
  Subrelation.wf (fun h => h.elim GivesUp.weight_lt fun ⟨_, hs⟩ => hs.weight_lt) (measure weight).wf

/-- **Writers that return nothing go on**: one of them can give up, or awaits an operation, whatever the sink
    answers. -/
theorem goes_on (above : Position) (i : Nat) (w : Writers ε) : (∃ result, w.Returns result) ∨
    (∃ w', GivesUp w w') ∨ ∃ o, ∀ error, ∃ w', Step above i w ⟨o, error⟩ w' := by
  induction w generalizing above i with
  | nil => exact .inl ⟨_, @Returns.ok _ _ [] rfl⟩
  | working task left files nested rest =>
      refine .inr (.inr ⟨⟨i :: above, task⟩, fun error => ?_⟩)
      cases error with
      | none => exact ⟨_, .done⟩
      | some e => exact ⟨_, .fail e⟩
  | joining files below rest ihb ih =>
      rcases ihb (i :: above) 0 with ⟨_, hbelow⟩ | ⟨_, hup⟩ | ⟨o, hstep⟩
      · cases hbelow with
        | error he => exact .inr (.inl ⟨_, .join he⟩)
        | ok hbelow =>
            rcases ih above (i + 1) with ⟨_, hrest⟩ | ⟨_, hup⟩ | ⟨o, hstep⟩
            · cases hrest with
              | error he => exact .inl ⟨_, .error he⟩
              | ok hrest => exact .inl ⟨_, .ok (by rw [counts?, hbelow, hrest]; rfl)⟩
            · exact .inr (.inl ⟨_, .besideJoining hup⟩)
            · exact .inr (.inr ⟨o, fun error => (hstep error).elim fun _ h => ⟨_, .besideJoining h⟩⟩)
      · exact .inr (.inl ⟨_, .nested hup⟩)
      · exact .inr (.inr ⟨o, fun error => (hstep error).elim fun _ h => ⟨_, .nested h⟩⟩)
  | failed error rest => exact .inl ⟨_, .error List.mem_cons_self⟩

/-- **An error reaches the top** when those that wait give up one after the other. -/
theorem errors_reached {w : Writers ε} (h : w.raised ≠ []) :
    ∃ w', Relation.ReflTransGen GivesUp w w' ∧ w'.errors ≠ [] := by
  induction w with
  | nil => exact absurd rfl h
  | working task left files nested rest ih =>
      obtain ⟨rest', hups, herrors⟩ := ih h
      exact ⟨_, hups.lift _ fun _ _ => .besideWorking, herrors⟩
  | joining files below rest ihb ih =>
      by_cases hbelow : below.raised = []
      · rw [raised, hbelow, List.nil_append] at h
        obtain ⟨rest', hups, herrors⟩ := ih h
        exact ⟨_, hups.lift _ fun _ _ => .besideJoining, herrors⟩
      · obtain ⟨below', hups, herrors⟩ := ihb hbelow
        obtain ⟨e, he⟩ := List.exists_mem_of_ne_nil _ herrors
        have hnested : Relation.ReflTransGen GivesUp (.joining files below rest) (.joining files below' rest) :=
          hups.lift (joining files · rest) fun _ _ => .nested
        exact ⟨.failed e rest, hnested.tail (.join he), List.cons_ne_nil _ _⟩
  | failed error rest => exact ⟨_, .refl, List.cons_ne_nil _ _⟩

theorem run_of_givesUp {w w' : Writers ε} (h : Relation.ReflTransGen GivesUp w w') : Run w [] w' := by
  induction h using Relation.ReflTransGen.head_induction_on with
  | refl => exact .refl _
  | head hup _ ih => exact .giveUp hup ih

end Writers

/-! ## 5. Every run -/

/-- **The errors of a run**: what is raised are errors of its operations, and something is raised if one has failed. -/
theorem Writers.Run.raised {w w' : Writers ε} {events : List (Performed ε)} (h : Run w events w') :
    (∀ e ∈ w'.raised, e ∈ w.raised ∨ ∃ p ∈ events, p.error = some e) ∧
      ((w.raised ≠ [] ∨ ∃ p ∈ events, p.error ≠ none) → w'.raised ≠ []) := by
  induction h with
  | refl w => exact ⟨fun e he => .inl he, fun h => h.elim id fun ⟨_, hp, _⟩ => by cases hp⟩
  | @perform w w' _ p events hs _ ih =>
      have hmem := hs.mem_raised
      constructor
      · intro e he
        rcases ih.1 e he with he | ⟨q, hq, he⟩
        · exact ((hmem e).mp he).imp_right fun hp => ⟨p, List.mem_cons_self, hp⟩
        · exact .inr ⟨q, List.mem_cons_of_mem _ hq, he⟩
      · rintro (hw | ⟨q, hq, hne⟩)
        · obtain ⟨e, he⟩ := List.exists_mem_of_ne_nil _ hw
          exact ih.2 (.inl (List.ne_nil_of_mem ((hmem e).mpr (.inl he))))
        · rcases List.mem_cons.mp hq with rfl | hq
          · obtain ⟨e, he⟩ := Option.ne_none_iff_exists'.mp hne
            exact ih.2 (.inl (List.ne_nil_of_mem ((hmem e).mpr (.inr he))))
          · exact ih.2 (.inr ⟨q, hq, hne⟩)
  | giveUp hg _ ih =>
      obtain ⟨hsubset, hne⟩ := hg.raised_subset
      exact ⟨fun e he => (ih.1 e he).imp_left fun he => hsubset he, fun h => ih.2 (h.imp_left fun _ => hne)⟩

/-- What holds in every run of the writers of a plan, whatever the sink answers. -/
structure Disciplined (plan : Groups) (events : List (Performed ε)) (w : Writers ε) : Prop where
  /-- When something is returned it is an error exactly if an operation has failed. -/
  returns : ∀ result, w.Returns result → ((∃ e, result = .error e) ↔ ∃ p ∈ events, p.error ≠ none)
  /-- The error is that of an operation that has failed. -/
  reported : ∀ e, w.Returns (.error e) → ∃ p ∈ events, p.error = some e
  /-- When an operation has failed an error can be returned without another operation. -/
  fails : (∃ p ∈ events, p.error ≠ none) → ∃ w' e, Run w [] w' ∧ w'.Returns (.error e)
  /-- As long as nothing is returned a writer can give up, or a task is awaited, whatever the sink answers; -/
  goesOn : (∀ result, ¬ w.Returns result) →
    (∃ w', GivesUp w w') ∨ ∃ o, ∀ error, ∃ w', Step [] 0 w ⟨o, error⟩ w'
  /-- and this does not go on for ever. -/
  ends : Acc (fun w'' w' => Moves w' w'') w
  /-- Of every directory the first of its operations happen: it is made, and its files follow in order. -/
  own : ∀ p ∈ plan.planned [] 0, performedAt events p.position <+: p.operations
  /-- Behind an operation that has failed nothing happens in its directory, nor in one that hangs off it. -/
  stops : ∀ before e after, events = before ++ e :: after → e.error ≠ none →
    ∀ later ∈ after, ¬ Position.Covers e.operation.position later.operation.position
  /-- Ahead of an operation all those of the directories that its own hangs off have happened, none with an error. -/
  enclosing : ∀ before e after, events = before ++ e :: after → ∀ outer ∈ plan.planned [] 0,
    Position.Covers outer.position e.operation.position → outer.position ≠ e.operation.position →
      performedAt before outer.position = outer.operations ∧
        ∀ b ∈ before, b.operation.position = outer.position → b.error = none
  /-- What is awaited is due in the same way, whether it is answered or not. -/
  awaited : ∀ p w', Step [] 0 w p w' → Due plan events p.operation

/-- **Every operation of a run was due.** -/
theorem due_of_run {plan : Groups} {before after : List (Performed ε)} {e : Performed ε} {w : Writers ε}
    (h : Run (start plan) (before ++ e :: after) w) : Due plan before e.operation := by
  obtain ⟨_, _, hbefore, hs, -⟩ := h.split_at
  exact hbefore.due hs

/-- **Every run is disciplined**, whatever the sink answers. -/
theorem disciplined_of_run {plan : Groups} {events : List (Performed ε)} {w : Writers ε}
    (h : Run (start plan) events w) : Disciplined plan events w := by
  obtain ⟨hraised, hfails⟩ := h.raised
  rw [raised_start] at hraised hfails
  have hreported : ∀ e ∈ w.raised, ∃ p ∈ events, p.error = some e :=
    fun e he => (hraised e he).resolve_left List.not_mem_nil
  refine ⟨?returns, ?reported, ?fails, ?goesOn, wellFounded_moves.apply w, ?own, ?stops, ?enclosing,
    fun _ _ hs => h.due hs⟩
  case reported =>
    intro e he
    cases he with
    | error he => exact hreported e (raised_of_errors e he)
  case returns =>
    intro result hresult
    cases hresult with
    | ok hc =>
        refine ⟨fun ⟨_, he⟩ => (by cases he), fun hp => ?_⟩
        exact absurd (raised_of_counts? hc) (hfails (.inr hp))
    | error he =>
        obtain ⟨p, hp, hpe⟩ := hreported _ (raised_of_errors _ he)
        exact ⟨fun _ => ⟨p, hp, by rw [hpe]; exact Option.some_ne_none _⟩, fun _ => ⟨_, rfl⟩⟩
  case fails =>
    intro hp
    obtain ⟨w', hups, herrors⟩ := errors_reached (hfails (.inr hp))
    obtain ⟨e, he⟩ := List.exists_mem_of_ne_nil _ herrors
    exact ⟨w', e, run_of_givesUp hups, .error he⟩
  case goesOn =>
    intro hreturns
    rcases goes_on [] 0 w with ⟨result, hresult⟩ | hmore
    · exact absurd hresult (hreturns result)
    · exact hmore
  case own =>
    intro p hp
    have hown := h.reached_start.1.own p.position
    rw [Groups.filter_operations hp] at hown
    exact (List.prefix_append _ _).trans hown
  case stops =>
    rintro before e after rfl hne later hlater hc
    obtain ⟨between, behind, rfl⟩ := List.append_of_mem hlater
    rw [← List.cons_append, ← List.append_assoc] at h
    have hdue := due_of_run h
    exact hne (hdue.unfailed e (List.mem_append_right _ List.mem_cons_self) hc)
  case enclosing =>
    rintro before e after rfl outer hp hc hne
    have hdue := due_of_run h
    refine ⟨hdue.enclosing outer hp hc hne, fun b hb hposition => hdue.unfailed b hb ?_⟩
    rw [hposition]
    exact hc

/-- A directory that hangs off another cannot be made, while a writer beside goes on. -/
theorem nested_failure_disciplined : ∃ events w,
    Run (start (.group "a" [⟨"a/x", .empty⟩] (.group "a/b" [⟨"a/b/y", .empty⟩] .nil .nil)
      (.group "c" [⟨"c/z", .empty⟩] .nil .nil))) events w ∧ w.Returns (.error "denied") ∧
    events.map (fun e => (e.operation.position, e.error)) =
      [([1], none), ([0], none), ([0], none), ([0, 0], some "denied"), ([1], none)] ∧
    Disciplined (.group "a" [⟨"a/x", .empty⟩] (.group "a/b" [⟨"a/b/y", .empty⟩] .nil .nil)
      (.group "c" [⟨"c/z", .empty⟩] .nil .nil)) events w := by
  obtain ⟨events, w, hrun, hreturns, hevents⟩ : ∃ events w,
      Run (start (.group "a" [⟨"a/x", .empty⟩] (.group "a/b" [⟨"a/b/y", .empty⟩] .nil .nil)
        (.group "c" [⟨"c/z", .empty⟩] .nil .nil))) events w ∧ w.Returns (.error "denied") ∧
      events.map (fun e => (e.operation.position, e.error)) =
        [([1], none), ([0], none), ([0], none), ([0, 0], some "denied"), ([1], none)] :=
    ⟨_, _, .perform (.besideWorking .done) <| .perform .done <| .perform .done <|
      .perform (.nested (.fail "denied")) <| .perform (.besideJoining .done) <|
      .giveUp (.join List.mem_cons_self) <| .refl _, .error List.mem_cons_self, rfl⟩
  exact ⟨events, w, hrun, hreturns, hevents, disciplined_of_run hrun⟩

end RouteScaffold
