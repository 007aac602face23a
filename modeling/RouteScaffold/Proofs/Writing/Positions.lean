import Mathlib.Data.List.Infix
import Mathlib.Data.List.Nodup
import RouteScaffold.ArtifactWriter

/-!
# Where the directories of a plan stand

* `Position`: where a directory stands in a plan, so that two directories with the same path and files are two;
* `Groups.planned`: the directories of a plan with their positions, each ahead of those that hang off it;
* `Groups.operations`: the tasks of a plan in order, each with the position of its directory;
* `pairwise_operations`: no operation stands behind one of a directory that hangs off its own.
-/

namespace RouteScaffold

/-! ## 1. Positions -/

/-- Where a directory stands: its number among the directories side by side, and behind it the position of the directory
    that they hang off. -/
abbrev Position := List Nat

/-- The directory at `outer` is the one at `inner`, or that one hangs off it at some depth. -/
abbrev Position.Covers (outer inner : Position) : Prop := outer <:+ inner

/-- Side by side, different directories cover different positions. -/
theorem Position.number_eq {i k : Nat} {above position : Position} (hi : Position.Covers (i :: above) position)
    (hk : Position.Covers (k :: above) position) : i = k := by
  have heq : i :: above = k :: above := (List.suffix_of_suffix_length_le hi hk le_rfl).eq_of_length rfl
  exact (List.cons.inj heq).1

/-- No position is covered by one below it. -/
theorem Position.not_covers_below (i k : Nat) (above : Position) {position : Position}
    (h : Position.Covers (k :: i :: above) position) : ¬ Position.Covers position (i :: above) := by
  intro hle
  have hlength := (h.trans hle).length_le
  simp only [List.length_cons] at hlength
  omega

/-! ## 2. The directories of a plan -/

/-- A directory of a plan. -/
structure Planned where
  position : Position
  directory : String
  files : List Artifact

/-- A task with the position of the directory that it belongs to. -/
structure Operation where
  position : Position
  task : Task
  deriving DecidableEq

/-- The operations of a directory: it is made, and its files are written in order. -/
def Planned.operations (p : Planned) : List Operation :=
  (.makeDirectory p.directory :: p.files.map Artifact.task).map fun task => ⟨p.position, task⟩

namespace Groups

/-- The directories of a plan that stands below a position, numbered from `i`. -/
def planned (above : Position) (i : Nat) : Groups → List Planned
  | .nil => []
  | .group directory files nested rest =>
    ⟨i :: above, directory, files⟩ :: (nested.planned (i :: above) 0 ++ rest.planned above (i + 1))

/-- The operations of a plan. -/
def operations (above : Position) (i : Nat) (g : Groups) : List Operation :=
  (g.planned above i).flatMap Planned.operations

/-- The plan with its paths seen from a root. -/
def under (root : String) : Groups → Groups
  | .nil => .nil
  | .group directory files nested rest =>
    .group (Path.join root directory) (files.map fun a => { a with path := Path.join root a.path })
      (nested.under root) (rest.under root)

@[simp] theorem operations_group (above : Position) (i : Nat) (directory : String) (files : List Artifact)
    (nested rest : Groups) : (Groups.group directory files nested rest).operations above i =
      (.makeDirectory directory :: files.map Artifact.task).map (fun task => ⟨i :: above, task⟩) ++
        (nested.operations (i :: above) 0 ++ rest.operations above (i + 1)) := by
  rw [operations, planned, List.flatMap_cons, List.flatMap_append]
  rfl

/-- **The tasks of the operations are the tasks of the plan**, in the same order. -/
theorem task_operations (above : Position) (i : Nat) (g : Groups) :
    (g.operations above i).map Operation.task = g.tasks := by
  induction g generalizing above i with
  | nil => rfl
  | group directory files nested rest ihn ih =>
      rw [operations_group, List.map_append, List.map_append, ihn, ih, List.map_map, tasks, List.append_assoc]
      exact congrArg (· ++ (nested.tasks ++ rest.tasks)) (List.map_id _)

theorem tasks_under (root : String) (g : Groups) : (g.under root).tasks = g.tasks.map (Task.under root) := by
  induction g with
  | nil => rfl
  | group directory files nested rest ihn ih =>
      rw [under, tasks, tasks, ihn, ih]
      simp only [List.map_cons, List.map_append, List.map_map, List.cons_append]
      rfl

theorem counts_under (root : String) (g : Groups) : (g.under root).counts = g.counts := by
  induction g with
  | nil => rfl
  | group directory files nested rest ihn ih =>
      rw [under, counts, counts, ihn, ih, List.length_map]

theorem count_nil : Groups.nil.count = 0 := rfl

theorem count_group (directory : String) (files : List Artifact) (nested rest : Groups) :
    (Groups.group directory files nested rest).count = files.length + nested.count + rest.count := rfl

/-- **A plan counts its files.** -/
theorem count_eq_length_files (g : Groups) : g.count = g.files.length := by
  induction g with
  | nil => rfl
  | group directory files nested rest ihn ih =>
      rw [count_group, ihn, ih, Groups.files, List.length_append, List.length_append]

/-! ## 3. Their order -/

/-- The directories of a plan stand at positions that its numbers cover. -/
theorem covers_planned {above : Position} {i : Nat} {g : Groups} :
    ∀ p ∈ g.planned above i, ∃ k, i ≤ k ∧ Position.Covers (k :: above) p.position := by
  induction g generalizing above i with
  | nil => exact fun p hp => by cases hp
  | group directory files nested rest ihn ih =>
      intro p hp
      rcases List.mem_cons.mp hp with rfl | hp
      · exact ⟨i, le_rfl, List.suffix_rfl⟩
      · rcases List.mem_append.mp hp with hp | hp
        · obtain ⟨k, -, hk⟩ := ihn p hp
          exact ⟨i, le_rfl, (List.suffix_cons k _).trans hk⟩
        · obtain ⟨k, hk, hcovers⟩ := ih p hp
          exact ⟨k, by omega, hcovers⟩

/-- **No directory of a plan stands behind one that it covers**; so their positions differ, and a directory stands ahead
    of those that hang off it. -/
theorem pairwise_planned (above : Position) (i : Nat) (g : Groups) :
    (g.planned above i).Pairwise fun a b => ¬ Position.Covers b.position a.position := by
  induction g generalizing above i with
  | nil => exact .nil
  | group directory files nested rest ihn ih =>
      -- What stands behind among the directories side by side has another number.
      have hother : ∀ {a : Position} {b : Planned}, b ∈ rest.planned above (i + 1) → Position.Covers (i :: above) a →
          ¬ Position.Covers b.position a := by
        intro a b hb ha hba
        obtain ⟨k, hk, hcovers⟩ := covers_planned b hb
        have hik := Position.number_eq ha (hcovers.trans hba)
        omega
      refine List.pairwise_cons.mpr ⟨fun b hb => ?_, List.pairwise_append.mpr ⟨ihn _ _, ih _ _, fun a ha b hb => ?_⟩⟩
      · rcases List.mem_append.mp hb with hb | hb
        · obtain ⟨k, -, hcovers⟩ := covers_planned b hb
          exact Position.not_covers_below i k above hcovers
        · exact hother hb List.suffix_rfl
      · obtain ⟨k, -, hcovers⟩ := covers_planned a ha
        exact hother hb ((List.suffix_cons k _).trans hcovers)

theorem position_operations {p : Planned} {o : Operation} (h : o ∈ p.operations) : o.position = p.position := by
  obtain ⟨task, -, rfl⟩ := List.mem_map.mp h
  rfl

theorem covers_operations {above : Position} {i : Nat} {g : Groups} :
    ∀ o ∈ g.operations above i, ∃ k, i ≤ k ∧ Position.Covers (k :: above) o.position := by
  intro o ho
  obtain ⟨p, hp, ho⟩ := List.mem_flatMap.mp ho
  rw [position_operations ho]
  exact covers_planned p hp

/-- **No operation of a plan stands behind one of a directory that hangs off its own.** -/
theorem pairwise_operations (above : Position) (i : Nat) (g : Groups) :
    (g.operations above i).Pairwise fun a b => a.position ≠ b.position → ¬ Position.Covers b.position a.position := by
  refine List.pairwise_flatMap.mpr ⟨fun p _ => ?_, (pairwise_planned above i g).imp fun hab a ha b hb _ => ?_⟩
  · refine List.pairwise_of_forall_mem_list fun a ha b hb hne => absurd ?_ hne
    rw [position_operations ha, position_operations hb]
  · rw [position_operations ha, position_operations hb]
    exact hab

/-- **The operations at the position of a directory are its own.** -/
theorem filter_operations {above : Position} {i : Nat} {g : Groups} {p : Planned} (h : p ∈ g.planned above i) :
    (g.operations above i).filter (fun o => o.position = p.position) = p.operations := by
  have hown : p.operations.filter (fun o => o.position = p.position) = p.operations :=
    List.filter_eq_self.mpr fun o ho => decide_eq_true (position_operations ho)
  -- Those of other directories are elsewhere.
  have hothers : ∀ {others : List Planned}, (∀ q ∈ others, q.position ≠ p.position) →
      (others.flatMap Planned.operations).filter (fun o => o.position = p.position) = [] := by
    intro others hne
    refine List.filter_eq_nil_iff.mpr fun o ho => ?_
    obtain ⟨q, hq, ho⟩ := List.mem_flatMap.mp ho
    rw [decide_eq_true_iff, position_operations ho]
    exact hne q hq
  have hdiffer : (g.planned above i).Pairwise fun a b => a.position ≠ b.position := by
    refine (pairwise_planned above i g).imp fun hab he => hab ?_
    rw [he]
  obtain ⟨front, back, hsplit⟩ := List.append_of_mem h
  rw [hsplit, List.pairwise_append, List.pairwise_cons] at hdiffer
  obtain ⟨-, ⟨hback, -⟩, hfront⟩ := hdiffer
  rw [operations, hsplit, List.flatMap_append, List.flatMap_cons, List.filter_append, List.filter_append, hown,
    hothers fun q hq => hfront q hq p List.mem_cons_self, hothers fun q hq => (hback q hq).symm, List.nil_append,
    List.append_nil]

end Groups

end RouteScaffold
