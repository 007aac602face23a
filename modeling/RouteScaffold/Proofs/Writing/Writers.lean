import RouteScaffold.Proofs.Writing.Schedule

/-!
# Writers side by side

Planned directories are written side by side: a writer makes its directory, then writes its files one after the other,
and then has the directories that hang off its own written side by side in turn, for which it waits. Whose task is done
next is open, so that a run is any interleaving of the writers (`Writers.Run`). An operation is an event of the run when
the sink has answered it; the answer may be an error, and then its writer gives up, and those that wait for it.

While nothing fails, a step of a run takes one operation out of those that are left, in front of which nothing of the
same directory stands nor of one that this hangs off (`Step.proceeds`), and so does a run one by one
(`Run.proceeds`). The first operation that is left is always awaited (`awaits_first`).
-/

namespace RouteScaffold

/-! ## 1. Writers -/

/-- An operation that the sink has answered, with the error if it failed. -/
structure Performed (ε : Type) where
  operation : Operation
  error : Option ε

/-- What an answer leaves of the operations behind: with an error the directory of the operation is given up. -/
def Performed.leaves {ε : Type} (p : Performed ε) (behind : List Operation) : List Operation :=
  match p.error with
  | none => behind
  | some _ => spared p.operation.position behind

/-- Writers side by side. -/
inductive Writers (ε : Type) where
  | nil
  /-- A writer that awaits a task, with the tasks that come behind it. -/
  | working (task : Task) (left : List Task) (files : Nat) (nested : Groups) (rest : Writers ε)
  /-- A writer that waits for those of the directories that hang off its own. -/
  | joining (files : Nat) (below rest : Writers ε)
  | failed (error : ε) (rest : Writers ε)

namespace Writers

variable {ε : Type}

/-- The writers of a plan. -/
def start : Groups → Writers ε
  | .nil => .nil
  | .group directory files nested rest =>
    .working (.makeDirectory directory) (files.map Artifact.task) files.length nested (start rest)

/-- A writer with some tasks left goes on, and without any to the directories that hang off its own. -/
def proceed (files : Nat) (nested : Groups) (rest : Writers ε) : List Task → Writers ε
  | [] => .joining files (start nested) rest
  | task :: left => .working task left files nested rest

/-- How many files each writer gives, when all have finished. -/
def counts? : Writers ε → Option (List Nat)
  | .nil => some []
  | .working .. => none
  | .joining files below rest =>
    below.counts?.bind fun nested => rest.counts?.map fun others => (files + nested.foldr (· + ·) 0) :: others
  | .failed .. => none

/-- The errors of the writers that have given up. -/
def errors : Writers ε → List ε
  | .nil => []
  | .working _ _ _ _ rest => rest.errors
  | .joining _ _ rest => rest.errors
  | .failed error rest => error :: rest.errors

/-- What writing a plan gives: the number of files if all writers have finished, and the error of one if one has
    given up. -/
inductive Returns (w : Writers ε) : Except ε Nat → Prop where
  | ok {counts : List Nat} (h : w.counts? = some counts) : Returns w (.ok (counts.foldr (· + ·) 0))
  | error {e : ε} (h : e ∈ w.errors) : Returns w (.error e)

/-! ## 2. Runs -/

/-- The sink answers the operation that one of the writers awaits. The writers stand below a position, numbered from
    `i`. -/
inductive Step : Position → Nat → Writers ε → Performed ε → Writers ε → Prop where
  | done {above : Position} {i : Nat} {task : Task} {left : List Task} {files : Nat} {nested : Groups}
      {rest : Writers ε} : Step above i (.working task left files nested rest) ⟨⟨i :: above, task⟩, none⟩
        (proceed files nested rest left)
  | fail {above : Position} {i : Nat} {task : Task} {left : List Task} {files : Nat} {nested : Groups}
      {rest : Writers ε} (e : ε) : Step above i (.working task left files nested rest) ⟨⟨i :: above, task⟩, some e⟩
        (.failed e rest)
  | nested {above : Position} {i : Nat} {files : Nat} {below below' rest : Writers ε} {p : Performed ε}
      (h : Step (i :: above) 0 below p below') : Step above i (.joining files below rest) p (.joining files below' rest)
  | besideWorking {above : Position} {i : Nat} {task : Task} {left : List Task} {files : Nat} {nested : Groups}
      {rest rest' : Writers ε} {p : Performed ε} (h : Step above (i + 1) rest p rest') :
      Step above i (.working task left files nested rest) p (.working task left files nested rest')
  | besideJoining {above : Position} {i : Nat} {files : Nat} {below rest rest' : Writers ε} {p : Performed ε}
      (h : Step above (i + 1) rest p rest') : Step above i (.joining files below rest) p (.joining files below rest')
  | besideFailed {above : Position} {i : Nat} {e : ε} {rest rest' : Writers ε} {p : Performed ε}
      (h : Step above (i + 1) rest p rest') : Step above i (.failed e rest) p (.failed e rest')

/-- A writer gives up since one that it waits for has. -/
inductive GivesUp : Writers ε → Writers ε → Prop where
  | join {files : Nat} {below rest : Writers ε} {e : ε} (h : e ∈ below.errors) :
      GivesUp (.joining files below rest) (.failed e rest)
  | nested {files : Nat} {below below' rest : Writers ε} (h : GivesUp below below') :
      GivesUp (.joining files below rest) (.joining files below' rest)
  | besideWorking {task : Task} {left : List Task} {files : Nat} {nested : Groups} {rest rest' : Writers ε}
      (h : GivesUp rest rest') : GivesUp (.working task left files nested rest) (.working task left files nested rest')
  | besideJoining {files : Nat} {below rest rest' : Writers ε} (h : GivesUp rest rest') :
      GivesUp (.joining files below rest) (.joining files below rest')
  | besideFailed {e : ε} {rest rest' : Writers ε} (h : GivesUp rest rest') :
      GivesUp (.failed e rest) (.failed e rest')

/-- **A run of writers**, with the operations that the sink has answered, in order. -/
inductive Run : Writers ε → List (Performed ε) → Writers ε → Prop where
  | refl (w : Writers ε) : Run w [] w
  | perform {w w' w'' : Writers ε} {p : Performed ε} {events : List (Performed ε)} (h : Step [] 0 w p w')
      (more : Run w' events w'') : Run w (p :: events) w''
  | giveUp {w w' w'' : Writers ε} {events : List (Performed ε)} (h : GivesUp w w') (more : Run w' events w'') :
      Run w events w''

theorem Run.split {before after : List (Performed ε)} {w w'' : Writers ε} (h : Run w (before ++ after) w'') :
    ∃ w', Run w before w' ∧ Run w' after w'' := by
  generalize hevents : before ++ after = events at h
  induction h generalizing before with
  | refl w =>
      obtain ⟨rfl, rfl⟩ := List.append_eq_nil_iff.mp hevents
      exact ⟨w, .refl w, .refl w⟩
  | @perform w _ _ p events hs hmore ih =>
      cases before with
      | nil =>
          cases hevents
          exact ⟨w, .refl w, .perform hs hmore⟩
      | cons first before =>
          cases hevents
          obtain ⟨w', hbefore, hafter⟩ := ih rfl
          exact ⟨w', .perform hs hbefore, hafter⟩
  | giveUp hg _ ih =>
      obtain ⟨w', hbefore, hafter⟩ := ih hevents
      exact ⟨w', .giveUp hg hbefore, hafter⟩

/-- A run at one of its operations. -/
theorem Run.split_at {before after : List (Performed ε)} {e : Performed ε} {w w'' : Writers ε}
    (h : Run w (before ++ e :: after) w'') :
    ∃ w₁ w₂, Run w before w₁ ∧ Step [] 0 w₁ e w₂ ∧ Run w₂ after w'' := by
  generalize hevents : before ++ e :: after = events at h
  induction h generalizing before with
  | refl => exact absurd hevents (List.append_ne_nil_of_right_ne_nil _ (List.cons_ne_nil _ _))
  | perform hs hmore ih =>
      cases before with
      | nil =>
          cases hevents
          exact ⟨_, _, .refl _, hs, hmore⟩
      | cons first before =>
          cases hevents
          obtain ⟨w₁, w₂, hbefore, hs', hafter⟩ := ih rfl
          exact ⟨w₁, w₂, .perform hs hbefore, hs', hafter⟩
  | giveUp hg _ ih =>
      obtain ⟨w₁, w₂, hbefore, hs', hafter⟩ := ih hevents
      exact ⟨w₁, w₂, .giveUp hg hbefore, hs', hafter⟩

/-! ## 3. What is left to do -/

/-- The operations that writers have left. -/
def operations (above : Position) (i : Nat) : Writers ε → List Operation
  | .nil => []
  | .working task left _ nested rest =>
    (task :: left).map (fun task => ⟨i :: above, task⟩) ++
      (nested.operations (i :: above) 0 ++ rest.operations above (i + 1))
  | .joining _ below rest => below.operations (i :: above) 0 ++ rest.operations above (i + 1)
  | .failed _ rest => rest.operations above (i + 1)

/-- How many files each writer is to give. -/
def counts : Writers ε → List Nat
  | .nil => []
  | .working _ _ files nested rest => (files + nested.count) :: rest.counts
  | .joining files below rest => (files + below.counts.foldr (· + ·) 0) :: rest.counts
  | .failed _ rest => 0 :: rest.counts

/-- No writer has failed or given up. -/
def Sound : Writers ε → Prop
  | .nil => True
  | .working _ _ _ _ rest => rest.Sound
  | .joining _ below rest => below.Sound ∧ rest.Sound
  | .failed .. => False

@[simp] theorem operations_start (above : Position) (i : Nat) (g : Groups) :
    (start g : Writers ε).operations above i = g.operations above i := by
  induction g generalizing i with
  | nil => rfl
  | group directory files nested rest _ ih => rw [start, operations, Groups.operations_group, ih]

@[simp] theorem counts_start (g : Groups) : (start g : Writers ε).counts = g.counts := by
  induction g with
  | nil => rfl
  | group directory files nested rest _ ih => rw [start, counts, Groups.counts, Groups.count, ih]

theorem sound_start (g : Groups) : (start g : Writers ε).Sound := by
  induction g with
  | nil => trivial
  | group directory files nested rest _ ih => exact ih

theorem operations_proceed (above : Position) (i files : Nat) (nested : Groups) (rest : Writers ε) (left : List Task) :
    (proceed files nested rest left).operations above i =
      left.map (fun task => ⟨i :: above, task⟩) ++
        (nested.operations (i :: above) 0 ++ rest.operations above (i + 1)) := by
  cases left with
  | nil => rw [proceed, operations, operations_start, List.map_nil, List.nil_append]
  | cons task left => rfl

theorem counts_proceed (files : Nat) (nested : Groups) (rest : Writers ε) (left : List Task) :
    (proceed files nested rest left).counts = (files + nested.count) :: rest.counts := by
  cases left with
  | nil => rw [proceed, counts, counts_start, Groups.count]
  | cons task left => rfl

theorem sound_proceed {rest : Writers ε} (h : rest.Sound) (files : Nat) (nested : Groups) (left : List Task) :
    (proceed files nested rest left).Sound := by
  cases left with
  | nil => exact ⟨sound_start nested, h⟩
  | cons task left => exact h

/-- The operations that writers have left are at positions that their numbers cover. -/
theorem covers_operations {above : Position} {i : Nat} {w : Writers ε} :
    ∀ o ∈ w.operations above i, ∃ k, i ≤ k ∧ Position.Covers (k :: above) o.position := by
  -- Those of the directories that hang off another are at positions that this one covers.
  have hbelow : ∀ {above : Position} {i : Nat} {o : Operation},
      (∃ k, 0 ≤ k ∧ Position.Covers (k :: i :: above) o.position) →
      ∃ k, i ≤ k ∧ Position.Covers (k :: above) o.position :=
    fun ⟨k, _, hk⟩ => ⟨_, le_rfl, (List.suffix_cons k _).trans hk⟩
  have hbeside : ∀ {above : Position} {i : Nat} {o : Operation},
      (∃ k, i + 1 ≤ k ∧ Position.Covers (k :: above) o.position) →
      ∃ k, i ≤ k ∧ Position.Covers (k :: above) o.position :=
    fun ⟨k, hk, hc⟩ => ⟨k, by omega, hc⟩
  induction w generalizing above i with
  | nil => exact fun o ho => by cases ho
  | working task left files nested rest ih =>
      intro o ho
      rcases List.mem_append.mp ho with ho | ho
      · obtain ⟨task, -, rfl⟩ := List.mem_map.mp ho
        exact ⟨i, le_rfl, List.suffix_rfl⟩
      · rcases List.mem_append.mp ho with ho | ho
        · exact hbelow (Groups.covers_operations o ho)
        · exact hbeside (ih o ho)
  | joining files below rest ihb ih =>
      intro o ho
      rcases List.mem_append.mp ho with ho | ho
      · exact hbelow (ihb o ho)
      · exact hbeside (ih o ho)
  | failed e rest ih => exact fun o ho => hbeside (ih o ho)

/-! ## 4. What a step takes -/

/-- What a directory covers covers nothing that is left beside the directory. -/
theorem not_covers_beside {above position : Position} {i : Nat} (hp : Position.Covers (i :: above) position)
    (rest : Writers ε) : ∀ o ∈ rest.operations above (i + 1), ¬ Position.Covers position o.position := by
  intro o ho hpo
  obtain ⟨k, hk, hc⟩ := covers_operations o ho
  have hik := Position.number_eq (hp.trans hpo) hc
  omega

/-- What stands beside a directory covers nothing that the directory covers. -/
theorem beside_not_covers {above position inner : Position} {i k : Nat} (hk : i + 1 ≤ k)
    (hp : Position.Covers (k :: above) position) (hi : Position.Covers (i :: above) inner) :
    ¬ Position.Covers position inner := by
  intro hc
  have hik := Position.number_eq hi (hp.trans hc)
  omega

/-- The operations that a directory and those that hang off it have left. -/
theorem covers_left {above : Position} {i : Nat} (left : List Task) (nested : Groups) :
    ∀ o ∈ left.map (fun task => (⟨i :: above, task⟩ : Operation)) ++ nested.operations (i :: above) 0,
      Position.Covers (i :: above) o.position := by
  intro o ho
  rcases List.mem_append.mp ho with ho | ho
  · obtain ⟨task, -, rfl⟩ := List.mem_map.mp ho
    exact List.suffix_rfl
  · obtain ⟨k, -, hc⟩ := Groups.covers_operations o ho
    exact (List.suffix_cons k _).trans hc

theorem covers_below {above : Position} {i : Nat} (below : Writers ε) :
    ∀ o ∈ below.operations (i :: above) 0, Position.Covers (i :: above) o.position := by
  intro o ho
  obtain ⟨k, -, hc⟩ := covers_operations o ho
  exact (List.suffix_cons k _).trans hc

/-- An answer to a writer below a directory leaves what stands beside the directory. -/
theorem leaves_beside {above : Position} {i : Nat} {p : Performed ε}
    (hp : Position.Covers (i :: above) p.operation.position) (behind : List Operation) (rest : Writers ε) :
    p.leaves (behind ++ rest.operations above (i + 1)) = p.leaves behind ++ rest.operations above (i + 1) := by
  unfold Performed.leaves
  cases p.error with
  | none => rfl
  | some e =>
      dsimp only
      rw [spared_append, spared_eq_self (not_covers_beside hp rest)]

/-- An answer takes one of some operations that are left, and gives up what is to be given up. -/
def Answers (todo : List Operation) (p : Performed ε) (left : List Operation) : Prop :=
  ∃ behind, Takes todo p.operation behind ∧ left = p.leaves behind

/-- What is taken beside a directory is taken behind what the directory covers. -/
theorem Answers.behind {above : Position} {i : Nat} {rest : Writers ε} {p : Performed ε} {left : List Operation}
    (h : Answers (rest.operations above (i + 1)) p left) {front : List Operation}
    (hf : ∀ o ∈ front, Position.Covers (i :: above) o.position) :
    Answers (front ++ rest.operations above (i + 1)) p (front ++ left) := by
  obtain ⟨behind, htakes, rfl⟩ := h
  refine ⟨_, htakes.behind fun o ho => not_covers_beside (hf o ho) rest _ htakes.mem, ?_⟩
  unfold Performed.leaves
  cases p.error with
  | none => rfl
  | some e =>
      obtain ⟨k, hk, hc⟩ := covers_operations p.operation htakes.mem
      dsimp only
      rw [spared_append, spared_eq_self fun o ho => beside_not_covers hk hc (hf o ho)]

/-- **A step takes one of the operations that are left**, and nothing that has to be done before it is left; if the
    answer is an error, nothing is left of its directory nor of those that hang off it. -/
theorem Step.answers {above : Position} {i : Nat} {w w' : Writers ε} {p : Performed ε} (h : Step above i w p w') :
    Answers (w.operations above i) p (w'.operations above i) := by
  induction h with
  | done =>
      refine ⟨_, .head, ?_⟩
      rw [operations_proceed]
      rfl
  | @fail _ _ _ left _ nested rest e =>
      refine ⟨_, .head, ?_⟩
      rw [List.append_eq, ← List.append_assoc, leaves_beside List.suffix_rfl, Performed.leaves,
        spared_eq_nil (covers_left left nested)]
      rfl
  | @nested _ _ _ below _ rest p _ ih =>
      obtain ⟨behind, htakes, hleft⟩ := ih
      refine ⟨_, htakes.append _, ?_⟩
      rw [leaves_beside (covers_below below _ htakes.mem), ← hleft]
      rfl
  | @besideWorking _ _ task left _ nested _ _ _ _ ih =>
      rw [operations, operations, ← List.append_assoc, ← List.append_assoc]
      exact ih.behind (covers_left (task :: left) nested)
  | @besideJoining _ _ _ below _ _ _ _ ih => exact ih.behind (covers_below below)
  | besideFailed _ ih => exact ih

/-- **Giving up leaves out one directory** and those that hang off it. -/
theorem GivesUp.spares {w w' : Writers ε} (h : GivesUp w w') (above : Position) (i : Nat) :
    ∃ position k, i ≤ k ∧ Position.Covers (k :: above) position ∧
      w'.operations above i = spared position (w.operations above i) := by
  induction h generalizing above i with
  | @join _ below rest =>
      refine ⟨i :: above, i, le_rfl, List.suffix_rfl, ?_⟩
      rw [operations, operations, spared_append, spared_eq_nil (covers_below below),
        spared_eq_self (not_covers_beside List.suffix_rfl rest), List.nil_append]
  | @nested _ below _ rest _ ih =>
      obtain ⟨position, k, -, hc, hleft⟩ := ih (i :: above) 0
      have hi := (List.suffix_cons k _).trans hc
      refine ⟨position, i, le_rfl, hi, ?_⟩
      rw [operations, operations, spared_append, ← hleft, spared_eq_self (not_covers_beside hi rest)]
  | @besideWorking task left _ nested _ _ _ ih =>
      obtain ⟨position, k, hk, hc, hleft⟩ := ih above (i + 1)
      refine ⟨position, k, by omega, hc, ?_⟩
      rw [operations, operations, ← List.append_assoc, ← List.append_assoc, spared_append, ← hleft,
        spared_eq_self fun o ho => beside_not_covers hk hc (covers_left (task :: left) nested o ho)]
  | @besideJoining _ below _ _ _ ih =>
      obtain ⟨position, k, hk, hc, hleft⟩ := ih above (i + 1)
      refine ⟨position, k, by omega, hc, ?_⟩
      rw [operations, operations, spared_append, ← hleft,
        spared_eq_self fun o ho => beside_not_covers hk hc (covers_below below o ho)]
  | besideFailed _ ih =>
      obtain ⟨position, k, hk, hc, hleft⟩ := ih above (i + 1)
      exact ⟨position, k, by omega, hc, hleft⟩

/-! ## 5. Steps without an error -/

/-- What a step without an error does: an operation is taken out of those that are left. -/
structure Proceeds (above : Position) (i : Nat) (w : Writers ε) (o : Operation) (w' : Writers ε) : Prop where
  sound : w'.Sound
  counts : w'.counts = w.counts
  takes : Takes (w.operations above i) o (w'.operations above i)

theorem Step.sound {above : Position} {i : Nat} {w w' : Writers ε} {p : Performed ε} (h : Step above i w p w')
    (hp : p.error = none) (hs : w.Sound) : w'.Sound ∧ w'.counts = w.counts := by
  induction h with
  | @done _ _ _ _ _ _ rest =>
      have hrest : rest.Sound := hs
      exact ⟨sound_proceed hrest _ _ _, counts_proceed _ _ _ _⟩
  | fail => cases hp
  | nested _ ih =>
      obtain ⟨hsound, hcounts⟩ := ih hp hs.1
      refine ⟨⟨hsound, hs.2⟩, ?_⟩
      rw [Writers.counts, Writers.counts, hcounts]
  | besideWorking _ ih =>
      obtain ⟨hsound, hcounts⟩ := ih hp hs
      refine ⟨hsound, ?_⟩
      rw [Writers.counts, Writers.counts, hcounts]
  | besideJoining _ ih =>
      obtain ⟨hsound, hcounts⟩ := ih hp hs.2
      refine ⟨⟨hs.1, hsound⟩, ?_⟩
      rw [Writers.counts, Writers.counts, hcounts]
  | besideFailed => exact hs.elim

/-- **A step without an error takes one of the operations that are left**, and nothing that has to be done before it is
    left. -/
theorem Step.proceeds {above : Position} {i : Nat} {w w' : Writers ε} {p : Performed ε} (h : Step above i w p w')
    (hp : p.error = none) (hs : w.Sound) : Proceeds above i w p.operation w' := by
  obtain ⟨hsound, hcounts⟩ := h.sound hp hs
  obtain ⟨behind, htakes, hleft⟩ := h.answers
  rw [Performed.leaves, hp] at hleft
  exact ⟨hsound, hcounts, hleft ▸ htakes⟩

theorem Sound.errors {w : Writers ε} (h : w.Sound) : w.errors = [] := by
  induction w with
  | nil => rfl
  | working task left files nested rest ih => exact ih h
  | joining files below rest _ ih => exact ih h.2
  | failed => exact h.elim

/-- Where nothing has failed nobody gives up. -/
theorem not_givesUp {w w' : Writers ε} (hs : w.Sound) : ¬ GivesUp w w' := by
  intro h
  induction h with
  | join he =>
      rw [Sound.errors hs.1] at he
      cases he
  | nested _ ih => exact ih hs.1
  | besideWorking _ ih => exact ih hs
  | besideJoining _ ih => exact ih hs.2
  | besideFailed => exact hs

/-- **A run without errors takes operations one by one** out of those that are left. -/
theorem Run.proceeds {w w' : Writers ε} {events : List (Performed ε)} (h : Run w events w')
    (he : ∀ p ∈ events, p.error = none) (hs : w.Sound) :
    w'.Sound ∧ w'.counts = w.counts ∧
      Schedule (w.operations [] 0) (events.map Performed.operation) (w'.operations [] 0) := by
  induction h with
  | refl w => exact ⟨hs, rfl, .none _⟩
  | perform hstep _ ih =>
      rw [List.forall_mem_cons] at he
      obtain ⟨hsound, hcounts, htakes⟩ := hstep.proceeds he.1 hs
      obtain ⟨hsound', hcounts', hschedule⟩ := ih he.2 hsound
      exact ⟨hsound', hcounts'.trans hcounts, .next htakes hschedule⟩
  | giveUp hg _ _ => exact absurd hg (not_givesUp hs)

/-! ## 6. Going on and returning -/

/-- **The first operation that is left is awaited**, whatever the sink answers. -/
theorem awaits_first {above : Position} {i : Nat} {w : Writers ε} (hs : w.Sound) {o : Operation}
    {more : List Operation} (h : w.operations above i = o :: more) (error : Option ε) :
    ∃ w', Step above i w ⟨o, error⟩ w' := by
  induction w generalizing above i more with
  | nil => cases h
  | working task left files nested rest ih =>
      cases h
      cases error with
      | none => exact ⟨_, .done⟩
      | some e => exact ⟨_, .fail e⟩
  | joining files below rest ihb ih =>
      rw [operations, List.append_eq_cons_iff] at h
      rcases h with ⟨-, hrest⟩ | ⟨_, hbelow, -⟩
      · obtain ⟨rest', hstep⟩ := ih hs.2 hrest
        exact ⟨_, .besideJoining hstep⟩
      · obtain ⟨below', hstep⟩ := ihb hs.1 hbelow
        exact ⟨_, .nested hstep⟩
  | failed => exact hs.elim

/-- **All writers have finished exactly if no operation is left**; then each gives its number of files. -/
theorem counts?_eq_some_iff (above : Position) (i : Nat) {w : Writers ε} (hs : w.Sound) (counts : List Nat) :
    w.counts? = some counts ↔ w.operations above i = [] ∧ counts = w.counts := by
  induction w generalizing above i counts with
  | nil => simp [counts?, operations, Writers.counts, eq_comm]
  | working => simp [counts?, operations]
  | joining files below rest ihb ih =>
      simp only [counts?, operations, Writers.counts, Option.bind_eq_some_iff, Option.map_eq_some_iff,
        List.append_eq_nil_iff, ihb (i :: above) 0 hs.1, ih above (i + 1) hs.2]
      constructor
      · rintro ⟨_, ⟨hbelow, rfl⟩, _, ⟨hrest, rfl⟩, rfl⟩
        exact ⟨⟨hbelow, hrest⟩, rfl⟩
      · rintro ⟨⟨hbelow, hrest⟩, rfl⟩
        exact ⟨_, ⟨hbelow, rfl⟩, _, ⟨hrest, rfl⟩, rfl⟩
  | failed => exact hs.elim

/-- Operations performed in order, one after the other, are a run. -/
theorem run_in_order {todo : List Operation} {w : Writers ε} (hs : w.Sound) (h : w.operations [] 0 = todo) :
    ∃ w', Run w (todo.map fun o => ⟨o, none⟩) w' ∧ w'.Sound ∧ w'.operations [] 0 = [] ∧ w'.counts = w.counts := by
  induction todo generalizing w with
  | nil => exact ⟨w, .refl w, hs, h, rfl⟩
  | cons o more ih =>
      obtain ⟨w', hstep⟩ := awaits_first hs h none
      obtain ⟨hsound, hcounts, htakes⟩ := hstep.proceeds rfl hs
      rw [h] at htakes
      obtain ⟨w'', hrun, hsound', hleft, hcounts'⟩ := ih hsound htakes.left_eq
      exact ⟨w'', .perform hstep hrun, hsound', hleft, hcounts'.trans hcounts⟩

end Writers

end RouteScaffold
