import RouteScaffold.Proofs.Writing.Positions

/-!
# Operations taken one by one

A list of operations is carried out in some order, none ahead of one that stands in front of it and belongs to its own
directory or to one that its directory hangs off (`Schedule`). Whatever the order, each operation is taken at most once
(`Schedule.perm`), those of a directory in their own order (`Schedule.filter_eq`), and none before all those of the
directories that its own hangs off (`Schedule.enclosing_taken`). When a directory is given up, its operations and those
of the directories that hang off it are left out (`spared`).
-/

namespace RouteScaffold

/-! ## 1. Taking one -/

/-- An operation is taken out of a list; in front of it stands nothing of its own directory, nor of one that its own
    hangs off. -/
inductive Takes : List Operation → Operation → List Operation → Prop where
  | mk {front back : List Operation} {o : Operation}
      (free : ∀ p ∈ front, ¬ Position.Covers p.position o.position) : Takes (front ++ o :: back) o (front ++ back)

namespace Takes

variable {todo left : List Operation} {o : Operation}

theorem head : Takes (o :: left) o left :=
  .mk (List.forall_mem_nil _ : ∀ p ∈ ([] : List Operation), ¬ Position.Covers p.position o.position)

theorem mem (h : Takes todo o left) : o ∈ todo := by
  cases h
  exact List.mem_append_right _ List.mem_cons_self

theorem perm (h : Takes todo o left) : (o :: left).Perm todo := by
  cases h
  exact List.perm_middle.symm

theorem sublist (h : Takes todo o left) : left.Sublist todo := by
  cases h
  exact (List.Sublist.refl _).append (List.sublist_cons_self _ _)

theorem append (h : Takes todo o left) (more : List Operation) : Takes (todo ++ more) o (left ++ more) := by
  cases h with
  | mk free =>
      rw [List.append_assoc, List.append_assoc, List.cons_append]
      exact .mk free

theorem behind {front : List Operation} (hf : ∀ p ∈ front, ¬ Position.Covers p.position o.position)
    (h : Takes todo o left) : Takes (front ++ todo) o (front ++ left) := by
  cases h with
  | mk free =>
      rw [← List.append_assoc, ← List.append_assoc]
      exact .mk (List.forall_mem_append.mpr ⟨hf, free⟩)

/-- The first operation of a list is the first of its position. -/
theorem left_eq {more : List Operation} (h : Takes (o :: more) o left) : left = more := by
  generalize htodo : o :: more = todo at h
  cases h with
  | @mk front back _ free =>
      cases front with
      | nil => exact (List.cons.inj htodo).2.symm
      | cons p front =>
          cases htodo
          exact absurd List.suffix_rfl (free o List.mem_cons_self)

/-- Of the operations of a directory the first is taken; those of other directories stay. -/
theorem filter_eq (h : Takes todo o left) (position : Position) :
    todo.filter (fun o => o.position = position) =
      (if o.position = position then [o] else []) ++ left.filter (fun o => o.position = position) := by
  cases h with
  | @mk front back _ free =>
      rw [List.filter_append, List.filter_append]
      by_cases ho : o.position = position
      · have hfront : front.filter (fun o => o.position = position) = [] := by
          refine List.filter_eq_nil_iff.mpr fun p hp he => free p hp ?_
          rw [ho, of_decide_eq_true he]
        rw [hfront, List.filter_cons_of_pos (by simpa using ho), if_pos ho]
        rfl
      · rw [List.filter_cons_of_neg (by simpa using ho), if_neg ho]
        rfl

/-- **When an operation is taken, none is left of a directory that its own hangs off.** -/
theorem enclosing_none (h : Takes todo o left)
    (ho : todo.Pairwise fun a b => a.position ≠ b.position → ¬ Position.Covers b.position a.position)
    {outer : Position} (hc : Position.Covers outer o.position) (hne : outer ≠ o.position) :
    todo.filter (fun o => o.position = outer) = [] := by
  cases h with
  | @mk front back _ free =>
      obtain ⟨-, hback, -⟩ := List.pairwise_append.mp ho
      refine List.filter_eq_nil_iff.mpr fun p hp he => ?_
      rw [← of_decide_eq_true he] at hc hne
      rcases List.mem_append.mp hp with hp | hp
      · exact free p hp hc
      · rcases List.mem_cons.mp hp with rfl | hp
        · exact hne rfl
        · exact List.rel_of_pairwise_cons hback hp (Ne.symm hne) hc

end Takes

/-! ## 2. One by one -/

/-- Of the operations of a list some are taken one after the other and the others are left. -/
inductive Schedule : List Operation → List Operation → List Operation → Prop where
  | none (todo : List Operation) : Schedule todo [] todo
  | next {todo rest taken left : List Operation} {o : Operation} (first : Takes todo o rest)
      (more : Schedule rest taken left) : Schedule todo (o :: taken) left

namespace Schedule

variable {todo taken left : List Operation}

/-- **Every operation is taken or left, once.** -/
theorem perm (h : Schedule todo taken left) : (taken ++ left).Perm todo := by
  induction h with
  | none => exact .refl _
  | next first _ ih => exact (ih.cons _).trans first.perm

theorem sublist (h : Schedule todo taken left) : left.Sublist todo := by
  induction h with
  | none => exact .refl _
  | next first _ ih => exact ih.trans first.sublist

/-- **The operations of a directory are taken in their own order.** -/
theorem filter_eq (h : Schedule todo taken left) (position : Position) :
    todo.filter (fun o => o.position = position) =
      taken.filter (fun o => o.position = position) ++ left.filter (fun o => o.position = position) := by
  induction h with
  | none => rfl
  | @next _ _ _ _ o first _ ih =>
      rw [first.filter_eq position, ih, ← List.append_assoc]
      by_cases ho : o.position = position
      · rw [if_pos ho, List.filter_cons_of_pos (by simpa using ho)]
        rfl
      · rw [if_neg ho, List.filter_cons_of_neg (by simpa using ho)]
        rfl

/-- What is taken first and what is taken behind it. -/
theorem split {before after : List Operation} (h : Schedule todo (before ++ after) left) :
    ∃ between, Schedule todo before between ∧ Schedule between after left := by
  induction before generalizing todo with
  | nil => exact ⟨todo, .none todo, h⟩
  | cons o before ih =>
      cases h with
      | next first more =>
          obtain ⟨between, hbefore, hafter⟩ := ih more
          exact ⟨between, .next first hbefore, hafter⟩

/-- **When an operation is taken, those of every directory that its own hangs off have been taken.** -/
theorem enclosing_taken {before after : List Operation} {o : Operation} (h : Schedule todo (before ++ o :: after) left)
    (ho : todo.Pairwise fun a b => a.position ≠ b.position → ¬ Position.Covers b.position a.position)
    {outer : Position} (hc : Position.Covers outer o.position) (hne : outer ≠ o.position) :
    before.filter (fun o => o.position = outer) = todo.filter (fun o => o.position = outer) := by
  obtain ⟨between, hbefore, hafter⟩ := h.split
  rw [hbefore.filter_eq outer]
  cases hafter with
  | next first _ => rw [first.enclosing_none (ho.sublist hbefore.sublist) hc hne, List.append_nil]

end Schedule

/-! ## 3. Giving up -/

/-- What is left when the directory at a position is given up: nothing of it, nor of those that hang off it. -/
def spared (position : Position) (todo : List Operation) : List Operation :=
  todo.filter fun o => ¬ Position.Covers position o.position

theorem spared_append (position : Position) (todo more : List Operation) :
    spared position (todo ++ more) = spared position todo ++ spared position more := List.filter_append todo more

theorem spared_eq_nil {position : Position} {todo : List Operation}
    (h : ∀ o ∈ todo, Position.Covers position o.position) : spared position todo = [] :=
  List.filter_eq_nil_iff.mpr fun o ho he => of_decide_eq_true he (h o ho)

theorem spared_eq_self {position : Position} {todo : List Operation}
    (h : ∀ o ∈ todo, ¬ Position.Covers position o.position) : spared position todo = todo :=
  List.filter_eq_self.mpr fun o ho => decide_eq_true (h o ho)

theorem mem_spared {position : Position} {todo : List Operation} {o : Operation} :
    o ∈ spared position todo ↔ o ∈ todo ∧ ¬ Position.Covers position o.position := by
  rw [spared, List.mem_filter, decide_eq_true_iff]

theorem filter_spared_of_covers {position outer : Position} (h : Position.Covers position outer)
    (todo : List Operation) : (spared position todo).filter (fun o => o.position = outer) = [] := by
  refine List.filter_eq_nil_iff.mpr fun o ho he => (mem_spared.mp ho).2 ?_
  rw [of_decide_eq_true he]
  exact h

/-- **What is given up is whole directories**: of the others everything is left. -/
theorem filter_spared {position outer : Position} (h : ¬ Position.Covers position outer) (todo : List Operation) :
    (spared position todo).filter (fun o => o.position = outer) = todo.filter (fun o => o.position = outer) := by
  rw [spared, List.filter_filter]
  refine List.filter_congr fun o _ => ?_
  by_cases ho : o.position = outer
  · rw [ho]
    simpa using h
  · simp [ho]

end RouteScaffold
