import RouteScaffold.ArtifactWriter
import RouteScaffold.Proofs.Outcomes
import RouteScaffold.Proofs.Writing.Positions

/-!
# Writers that are polled

The writers of a plan are futures: each makes its directory, then writes its files one after the other, and then joins
the writers of the directories that hang off its own. A poll takes a future as far as the sink answers; joined futures
are polled in order, and the first error ends the poll (`Future.poll`, `Futures.poll`). A sink may leave a task pending,
so that a future is polled several times. If it always answers at once, one poll is the whole run.

* `Groups.poll_writing`: that poll does what the plan does task by task, whatever the sink is;
* `Groups.polled_in_order`: what is performed, up to the first failure, and what is returned.
-/

namespace RouteScaffold

variable {ε σ : Type}

/-! ## 1. Futures -/

mutual

/-- What is left of a computation that gives a number of files. -/
inductive Future (ε : Type) where
  | ready (result : Except ε Nat)
  /-- A task is awaited, and what comes behind it. -/
  | awaiting (task : Task) (next : Future ε)
  /-- Some files are written, and others join. -/
  | joining (files : Nat) (parts : Futures ε)

/-- Futures that are joined. -/
inductive Futures (ε : Type) where
  | nil
  | cons (first : Future ε) (rest : Futures ε)

end

/-- What a sink does when a task is polled: it leaves the task pending, or answers. -/
abbrev Polled (ε σ : Type) := Task → StateM σ (Option (Except ε Unit))

/-- What joined futures give, if all are ready. -/
def Futures.numbers? : Futures ε → Option (List Nat)
  | .nil => some []
  | .cons (.ready (.ok n)) rest => rest.numbers?.map (n :: ·)
  | .cons _ _ => none

mutual

/-- Takes a future as far as the sink answers. -/
def Future.poll (sink : Polled ε σ) : Future ε → StateM σ (Future ε)
  | .ready result => pure (.ready result)
  | .awaiting task next => do
    match ← sink task with
    | none => pure (.awaiting task next)
    | some (.error e) => pure (.ready (.error e))
    | some (.ok ()) => next.poll sink
  | .joining files parts => do
    match ← parts.poll sink with
    | .error e => pure (.ready (.error e))
    | .ok parts =>
      match parts.numbers? with
      | some numbers => pure (.ready (.ok (files + numbers.foldr (· + ·) 0)))
      | none => pure (.joining files parts)

/-- Takes joined futures as far as the sink answers, one after the other, up to the first that fails. -/
def Futures.poll (sink : Polled ε σ) : Futures ε → StateM σ (Except ε (Futures ε))
  | .nil => pure (.ok .nil)
  | .cons first rest => do
    match ← first.poll sink with
    | .ready (.error e) => pure (.error e)
    | first =>
      match ← rest.poll sink with
      | .error e => pure (.error e)
      | .ok rest => pure (.ok (.cons first rest))

end

/-! ## 2. The writers of a plan -/

/-- The future that awaits tasks one after the other and then goes on. -/
def Future.behind (tasks : List Task) (next : Future ε) : Future ε := tasks.foldr .awaiting next

namespace Groups

/-- The writers of a plan, one for each directory. -/
def writers : Groups → Futures ε
  | .nil => .nil
  | .group directory files nested rest =>
    .cons (.behind (.makeDirectory directory :: files.map Artifact.task) (.joining files.length nested.writers))
      rest.writers

/-- The future that writes a plan. -/
def writing (g : Groups) : Future ε := .joining 0 g.writers

end Groups

/-! ## 3. Sinks that answer at once -/

/-- A sink that leaves no task pending. -/
def instantly (sink : Task → ExceptT ε (StateM σ) Unit) : Polled ε σ := fun task => some <$> (sink task).run

/-- Futures that are ready. -/
def Futures.finished : List Nat → Futures ε
  | [] => .nil
  | n :: rest => .cons (.ready (.ok n)) (.finished rest)

theorem Futures.numbers?_finished (numbers : List Nat) :
    (Futures.finished numbers : Futures ε).numbers? = some numbers := by
  induction numbers with
  | nil => rfl
  | cons n rest ih => rw [finished, numbers?, ih, Option.map_some]

theorem instantly_eq (sink : Task → ExceptT ε (StateM σ) Unit) (task : Task) (s : σ) :
    instantly sink task s = (some ((sink task).run s).1, ((sink task).run s).2) := rfl

section Instantly

variable {sink : Task → ExceptT ε (StateM σ) Unit} {s s' : σ} {e : ε}

/-- A task that fails ends the future, -/
theorem Future.poll_awaiting_error {task : Task} (h : (sink task).run s = (.error e, s')) (next : Future ε) :
    (Future.awaiting task next).poll (instantly sink) s = (.ready (.error e), s') := by
  simp only [poll, bind, StateT.bind, instantly_eq, h]
  rfl

/-- and behind one that succeeds it goes on. -/
theorem Future.poll_awaiting_ok {task : Task} (h : (sink task).run s = (.ok (), s')) (next : Future ε) :
    (Future.awaiting task next).poll (instantly sink) s = next.poll (instantly sink) s' := by
  simp only [poll, bind, StateT.bind, instantly_eq, h]

/-- Of tasks the first that fails ends the future, -/
theorem Future.poll_behind_error {tasks : List Task} (h : (forM tasks sink).run s = (.error e, s')) (next : Future ε) :
    (Future.behind tasks next).poll (instantly sink) s = (.ready (.error e), s') := by
  induction tasks generalizing s with
  | nil => cases h
  | cons task rest ih =>
      rw [List.forM_cons] at h
      rcases hfirst : (sink task).run s with ⟨e' | ⟨⟩, t⟩
      · rw [run_bind_of_error hfirst] at h
        cases h
        exact poll_awaiting_error hfirst _
      · rw [run_bind_of_ok hfirst] at h
        exact (poll_awaiting_ok hfirst _).trans (ih h)

/-- and behind tasks that all succeed it goes on. -/
theorem Future.poll_behind_ok {tasks : List Task} (h : (forM tasks sink).run s = (.ok (), s')) (next : Future ε) :
    (Future.behind tasks next).poll (instantly sink) s = next.poll (instantly sink) s' := by
  induction tasks generalizing s with
  | nil =>
      cases h
      rfl
  | cons task rest ih =>
      rw [List.forM_cons] at h
      obtain ⟨⟨⟩, t, hfirst, hrest⟩ := run_bind_eq_ok.mp h
      exact (poll_awaiting_ok hfirst _).trans (ih hrest)

/-- Joined futures fail where one of them does, -/
theorem Future.poll_joining_error {parts : Futures ε} (h : parts.poll (instantly sink) s = (.error e, s'))
    (files : Nat) : (Future.joining files parts).poll (instantly sink) s = (.ready (.error e), s') := by
  simp only [poll, bind, StateT.bind, h]
  rfl

/-- and give the sum where all are ready. -/
theorem Future.poll_joining_ok {parts : Futures ε} {numbers : List Nat}
    (h : parts.poll (instantly sink) s = (.ok (.finished numbers), s')) (files : Nat) :
    (Future.joining files parts).poll (instantly sink) s =
      (.ready (.ok (files + numbers.foldr (· + ·) 0)), s') := by
  simp only [poll, bind, StateT.bind, h, Futures.numbers?_finished]
  rfl

/-- The first of joined futures fails, and no other is polled, -/
theorem Futures.poll_cons_error {first : Future ε} (h : first.poll (instantly sink) s = (.ready (.error e), s'))
    (rest : Futures ε) : (Futures.cons first rest).poll (instantly sink) s = (.error e, s') := by
  simp only [poll, bind, StateT.bind, h]
  rfl

/-- or is ready, and the others follow. -/
theorem Futures.poll_cons_ok {first : Future ε} {n : Nat} (h : first.poll (instantly sink) s = (.ready (.ok n), s'))
    (rest : Futures ε) : (Futures.cons first rest).poll (instantly sink) s =
      ((rest.poll (instantly sink) s').1.map (.cons (.ready (.ok n))), (rest.poll (instantly sink) s').2) := by
  simp only [poll, bind, StateT.bind, h]
  rcases rest.poll (instantly sink) s' with ⟨_ | _, _⟩ <;> rfl

end Instantly

/-! ## 4. One poll -/

namespace Groups

variable {sink : Task → ExceptT ε (StateM σ) Unit} {s s' : σ} {e : ε}

/-- The tasks of a plan behind each other: those of the first directory, those of the directories that hang off it, and
    the others. -/
theorem forM_tasks_group (directory : String) (files : List Artifact) (nested rest : Groups) :
    forM (Groups.group directory files nested rest).tasks sink =
      (forM (.makeDirectory directory :: files.map Artifact.task) sink >>= fun _ =>
        forM nested.tasks sink >>= fun _ => forM rest.tasks sink) := by
  rw [tasks, List.append_assoc, List.forM_append, List.forM_append]

/-- **Polled once, the writers of a plan do what it does task by task.** -/
theorem poll_writers {g : Groups} {result : Except ε Unit} (h : (forM g.tasks sink).run s = (result, s')) :
    g.writers.poll (instantly sink) s = (result.map fun _ => .finished g.counts, s') := by
  induction g generalizing s s' result with
  | nil =>
      cases h
      rfl
  | group directory files nested rest ihn ih =>
      rw [forM_tasks_group] at h
      rcases hown : (forM (.makeDirectory directory :: files.map Artifact.task) sink).run s with ⟨e | ⟨⟩, t⟩
      · rw [run_bind_of_error hown] at h
        cases h
        exact Futures.poll_cons_error (Future.poll_behind_error hown _) _
      rw [run_bind_of_ok hown] at h
      rcases hnested : (forM nested.tasks sink).run t with ⟨e | ⟨⟩, u⟩
      · rw [run_bind_of_error hnested] at h
        cases h
        have hjoin := Future.poll_joining_error (ihn hnested) files.length
        exact Futures.poll_cons_error ((Future.poll_behind_ok hown _).trans hjoin) _
      · rw [run_bind_of_ok hnested] at h
        have hjoin := Future.poll_joining_ok (ihn hnested) files.length
        have hcons := Futures.poll_cons_ok ((Future.poll_behind_ok hown _).trans hjoin) rest.writers
        rw [ih h] at hcons
        refine hcons.trans ?_
        cases result <;> rfl

/-- **One poll is the whole run**: the plan is written as it is task by task. -/
theorem poll_writing (root : String) (g : Groups) (s : σ) :
    (g.under root).writing.poll (instantly sink) s =
      (.ready ((g.writeTo sink root).run s).1, ((g.writeTo sink root).run s).2) := by
  have hwrite : g.writeTo sink root = forM (g.under root).tasks sink >>= fun _ => pure g.count := by
    rw [tasks_under, List.forM_map, writeTo, List.forM_eq_forM]
  rcases htasks : (forM (g.under root).tasks sink).run s with ⟨e | ⟨⟩, s'⟩
  · have hparts := poll_writers htasks
    rw [hwrite, run_bind_of_error htasks]
    exact Future.poll_joining_error hparts 0
  · have hparts := poll_writers htasks
    rw [hwrite, run_bind_of_ok htasks]
    refine (Future.poll_joining_ok hparts 0).trans ?_
    rw [Nat.zero_add, counts_under]
    rfl

end Groups

/-! ## 5. Up to the first failure -/

/-- The sink that records what it performs, and fails at some paths. -/
def recording (fails : String → Option ε) (task : Task) : ExceptT ε (StateM (List Task)) Unit := do
  modify (· ++ [task])
  match fails task.path with
  | some e => throw e
  | none => pure ()

section Recording

variable {fails : String → Option ε} {task : Task} (past : List Task)

theorem run_recording (fails : String → Option ε) (task : Task) : (recording fails task).run past =
    ((match fails task.path with
      | some e => .error e
      | none => .ok ()), past ++ [task]) := by
  have hrecord : (modify (· ++ [task]) : ExceptT ε (StateM (List Task)) Unit).run past = (.ok (), past ++ [task]) := rfl
  rw [recording, run_bind_of_ok hrecord]
  cases fails task.path <;> rfl

theorem run_recording_error {e : ε} (h : fails task.path = some e) :
    (recording fails task).run past = (.error e, past ++ [task]) := by
  rw [run_recording, h]

theorem run_recording_ok (h : fails task.path = none) :
    (recording fails task).run past = (.ok (), past ++ [task]) := by
  rw [run_recording, h]

/-- Tasks that do not fail are all performed, -/
theorem run_forM_recording {tasks : List Task} (h : ∀ task ∈ tasks, fails task.path = none) :
    (forM tasks (recording fails)).run past = (.ok (), past ++ tasks) := by
  induction tasks generalizing past with
  | nil =>
      rw [List.append_nil]
      rfl
  | cons task rest ih =>
      rw [List.forall_mem_cons] at h
      rw [List.forM_cons, run_bind_of_ok (run_recording_ok past h.1), ih _ h.2, List.append_assoc]
      rfl

/-- and those behind the first that fails are not. -/
theorem run_forM_recording_error {before after : List Task} {e : ε}
    (hbefore : ∀ task ∈ before, fails task.path = none) (h : fails task.path = some e) :
    (forM (before ++ task :: after) (recording fails)).run past = (.error e, past ++ before ++ [task]) := by
  rw [List.forM_append, run_bind_of_ok (run_forM_recording past hbefore), List.forM_cons,
    run_bind_of_error (run_recording_error _ h)]

end Recording

namespace Groups

/-- The writers of a plan and a sink that records, polled once. -/
theorem poll_recording (fails : String → Option ε) (root : String) (g : Groups) {result : Except ε Unit}
    {tasks : List Task} (h : (forM (g.tasks.map (Task.under root)) (recording fails)).run [] = (result, tasks)) :
    (g.under root).writing.poll (instantly (recording fails)) [] =
      (.ready (result.map fun _ => g.files.length), tasks) := by
  have hwrite : g.writeTo (recording fails) root =
      forM (g.tasks.map (Task.under root)) (recording fails) >>= fun _ => pure g.count := by
    rw [List.forM_map, writeTo, List.forM_eq_forM]
  rw [poll_writing, hwrite, ← count_eq_length_files]
  cases result with
  | error e => rw [run_bind_of_error h]; rfl
  | ok => rw [run_bind_of_ok h]; rfl

/-- **Writers that are polled write a plan in its order** if the sink answers at once: they do what it does task by
    task. So if no path fails, all its tasks are performed, a directory ahead of its files and these ahead of the
    directories that hang off it, and the number of its files is returned; otherwise the tasks up to the first that
    fails are, wherever in the plan it stands, and its error is returned. -/
theorem polled_in_order (root : String) (g : Groups) :
    (∀ (σ : Type) (sink : Task → ExceptT ε (StateM σ) Unit) (s : σ),
      (g.under root).writing.poll (instantly sink) s =
        (.ready ((g.writeTo sink root).run s).1, ((g.writeTo sink root).run s).2)) ∧
    ∀ fails : String → Option ε,
      ((∀ task ∈ g.tasks.map (Task.under root), fails task.path = none) →
        (g.under root).writing.poll (instantly (recording fails)) [] =
          (.ready (.ok g.files.length), g.tasks.map (Task.under root))) ∧
      ∀ before task after e, g.tasks.map (Task.under root) = before ++ task :: after →
        (∀ task ∈ before, fails task.path = none) → fails task.path = some e →
        (g.under root).writing.poll (instantly (recording fails)) [] = (.ready (.error e), before ++ [task]) := by
  refine ⟨fun σ sink s => poll_writing root g s, fun fails => ⟨fun h => ?_, ?_⟩⟩
  · exact poll_recording fails root g (run_forM_recording [] h)
  · intro before task after e htasks hbefore hfails
    have hrun : (forM (g.tasks.map (Task.under root)) (recording fails)).run [] = (.error e, before ++ [task]) := by
      rw [htasks]
      exact run_forM_recording_error [] hbefore hfails
    exact poll_recording fails root g hrun

/-- A directory with two that hang off it, in the first of which a file fails, and a directory beside them. -/
theorem nested_failure_polled : ∃ g : Groups,
    g = .group "a" [⟨"a/x.js", .empty⟩] (.group "a/b" [⟨"a/b/y.js", .rendered "y"⟩, ⟨"a/b/z.js", .empty⟩] .nil
      (.group "a/c" [⟨"a/c/v.js", .empty⟩] .nil .nil)) (.group "d" [] .nil .nil) ∧
    (g.under "app").writing.poll
        (instantly (recording fun path => if path = "app/a/b/y.js" then some "full" else none)) [] =
      (.ready (.error "full"), [.makeDirectory "app/a", .writeFile "app/a/x.js" "", .makeDirectory "app/a/b",
        .writeFile "app/a/b/y.js" "y"]) ∧
    (g.under "app").writing.poll (instantly (recording fun _ => (none : Option String))) [] =
      (.ready (.ok 4), g.tasks.map (Task.under "app")) := by
  refine ⟨_, rfl, ?_, ?_⟩
  · exact ((polled_in_order "app" _).2 _).2
      [.makeDirectory "app/a", .writeFile "app/a/x.js" "", .makeDirectory "app/a/b"] (.writeFile "app/a/b/y.js" "y")
      [.writeFile "app/a/b/z.js" "", .makeDirectory "app/a/c", .writeFile "app/a/c/v.js" "", .makeDirectory "app/d"]
      "full" (by decide +kernel) (by decide) rfl
  · exact ((polled_in_order "app" _).2 _).1 fun _ _ => rfl

end Groups

end RouteScaffold
