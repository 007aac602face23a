import RouteScaffold.Proofs.Expansion.Paths
import RouteScaffold.Proofs.Parents
import RouteScaffold.Proofs.Writing.Writers

/-!
# What holds in every interleaving

When writers side by side carry out a plan and nothing fails, the sink is asked for the tasks of the plan and nothing
else, each once (`InOrder`, `written_in_order`): the directory of a group first and then its files in order, and all of
this before anything of a directory that hangs off it. When all writers have finished, the number of files is given. The
files of an expansion stand in the directories of their groups, so that each is written when its parent directory has
been made (`ParentsFirst`). Carrying out the plan task by task is one of the interleavings (`writeTo_interleaves`).
-/

namespace RouteScaffold

open Writers

variable {ε : Type}

/-! ## 1. In order -/

/-- The operations of a directory among those that were performed. -/
def performedAt (events : List (Performed ε)) (position : Position) : List Operation :=
  (events.map Performed.operation).filter fun o => o.position = position

/-- What has happened in a run without errors of the writers of a plan. -/
structure InOrder (plan : Groups) (events : List (Performed ε)) (w : Writers ε) : Prop where
  /-- Only tasks of the plan are performed. -/
  planned : ∀ e ∈ events, ∃ p ∈ plan.planned [] 0, e.operation ∈ p.operations
  /-- A directory is made first, and its files follow in order. -/
  own : ∀ p ∈ plan.planned [] 0, performedAt events p.position <+: p.operations
  /-- Anything of a directory comes behind all of the directories that it hangs off. -/
  nested : ∀ before e after, events = before ++ e :: after → ∀ outer ∈ plan.planned [] 0,
    Position.Covers outer.position e.operation.position → outer.position ≠ e.operation.position →
      performedAt before outer.position = outer.operations
  /-- As long as nothing is returned a task is awaited, whatever the sink answers. -/
  goesOn : (∀ result, ¬ w.Returns result) → ∃ o, ∀ error, ∃ w', Step [] 0 w ⟨o, error⟩ w'
  bounded : events.length ≤ plan.tasks.length
  /-- When something is returned it is the number of files, and every task has been performed once. -/
  returns : ∀ result, w.Returns result → result = .ok plan.count ∧
    (events.map fun e => e.operation.task).Perm plan.tasks ∧
    ∀ p ∈ plan.planned [] 0, performedAt events p.position = p.operations

theorem performedAt_append (before after : List (Performed ε)) (position : Position) :
    performedAt (before ++ after) position = performedAt before position ++ performedAt after position := by
  rw [performedAt, List.map_append, List.filter_append]
  rfl

theorem performedAt_singleton (e : Performed ε) (position : Position) :
    performedAt [e] position = if e.operation.position = position then [e.operation] else [] := by
  rw [performedAt, List.map_singleton, List.filter_singleton]
  by_cases h : e.operation.position = position
  · simp [h]
  · simp [h]

/-- **A run without errors is in order.** -/
theorem inOrder_of_run {plan : Groups} {events : List (Performed ε)} {w : Writers ε} (h : Run (start plan) events w)
    (he : ∀ p ∈ events, p.error = none) : InOrder plan events w := by
  obtain ⟨hsound, hcounts, hschedule⟩ := h.proceeds he (sound_start plan)
  rw [operations_start] at hschedule
  rw [counts_start] at hcounts
  have htasks : (plan.operations [] 0).length = plan.tasks.length := by
    rw [← Groups.task_operations [] 0 plan, List.length_map]
  have hown : ∀ p ∈ plan.planned [] 0, p.operations = performedAt events p.position ++
      (w.operations [] 0).filter fun o => o.position = p.position := fun p hp => by
    rw [← Groups.filter_operations hp]
    exact hschedule.filter_eq p.position
  refine ⟨?planned, fun p hp => ⟨_, (hown p hp).symm⟩, ?nested, ?goesOn, ?bounded, ?returns⟩
  case planned =>
    intro e hm
    have ho : e.operation ∈ events.map Performed.operation := List.mem_map_of_mem hm
    exact List.mem_flatMap.mp (hschedule.perm.subset (List.mem_append_left _ ho))
  case nested =>
    rintro before e after rfl outer hp hc hne
    rw [List.map_append, List.map_cons] at hschedule
    rw [← Groups.filter_operations hp]
    exact hschedule.enclosing_taken (Groups.pairwise_operations [] 0 plan) hc hne
  case goesOn =>
    intro hreturns
    cases hleft : w.operations [] 0 with
    | nil =>
        have hall := (counts?_eq_some_iff [] 0 hsound w.counts).mpr ⟨hleft, rfl⟩
        exact absurd (.ok hall) (hreturns _)
    | cons o more => exact ⟨o, awaits_first hsound hleft⟩
  case bounded =>
    have hlength := hschedule.perm.length_eq
    rw [List.length_append, List.length_map, htasks] at hlength
    omega
  case returns =>
    intro result hresult
    cases hresult with
    | error hm =>
        rw [hsound.errors] at hm
        cases hm
    | ok hc =>
        obtain ⟨hleft, rfl⟩ := (counts?_eq_some_iff [] 0 hsound _).mp hc
        have hperm := hschedule.perm
        rw [hleft, List.append_nil] at hperm
        refine ⟨by rw [hcounts]; rfl, ?_, fun p hp => ?_⟩
        · have hmap := hperm.map Operation.task
          rwa [List.map_map, Groups.task_operations] at hmap
        · rw [hown p hp, hleft, List.filter_nil, List.append_nil]

/-! ## 2. Parents first -/

/-- Whenever a file is written, its parent directory has been made. -/
def ParentsFirst (events : List (Performed ε)) : Prop :=
  ∀ before e after, events = before ++ e :: after → ∀ path text, e.operation.task = .writeFile path text →
    ∃ parent, Path.parent? path = some parent ∧ ∃ d ∈ before, d.operation.task = .makeDirectory parent

/-- The files of a plan stand right in the directories of their groups. -/
def Groups.InPlace : Groups → Prop
  | .nil => True
  | .group directory files nested rest =>
    (∀ a ∈ files, Path.parent? a.path = some directory) ∧ nested.InPlace ∧ rest.InPlace

theorem Groups.InPlace.parent {g : Groups} (h : g.InPlace) {above : Position} {i : Nat} :
    ∀ p ∈ g.planned above i, ∀ a ∈ p.files, Path.parent? a.path = some p.directory := by
  induction g generalizing above i with
  | nil => exact fun p hp => by cases hp
  | group directory files nested rest ihn ih =>
      intro p hp
      rcases List.mem_cons.mp hp with rfl | hp
      · exact h.1
      · exact (List.mem_append.mp hp).elim (ihn h.2.1 p) (ih h.2.2 p)

/-- A file that is written is one of its group. -/
theorem mem_files_of_operation {p : Planned} {o : Operation} {path text : String} (h : o ∈ p.operations)
    (ht : o.task = .writeFile path text) : ∃ a ∈ p.files, a.path = path := by
  obtain ⟨task, hm, rfl⟩ := List.mem_map.mp h
  rcases List.mem_cons.mp hm with rfl | hm
  · cases ht
  · obtain ⟨a, ha, rfl⟩ := List.mem_map.mp hm
    cases ht
    exact ⟨a, ha, rfl⟩

/-- **Where files stand right in the directories of their groups**, these are made before them. -/
theorem parentsFirst_of_run {plan : Groups} {events : List (Performed ε)} {w : Writers ε}
    (h : Run (start plan) events w) (he : ∀ p ∈ events, p.error = none) (hp : plan.InPlace) : ParentsFirst events := by
  rintro before e after rfl path text htask
  -- The run up to this file is in order, and it ends with the file.
  rw [← List.singleton_append, ← List.append_assoc] at h he
  obtain ⟨w', hrun, -⟩ := h.split
  have horder := inOrder_of_run hrun fun p hm => he p (List.mem_append_left _ hm)
  obtain ⟨p, hm, ho⟩ := horder.planned e (List.mem_append_right _ List.mem_cons_self)
  obtain ⟨a, ha, rfl⟩ := mem_files_of_operation ho htask
  refine ⟨p.directory, hp.parent p hm a ha, ?_⟩
  have hlast : performedAt [e] p.position = [e.operation] :=
    List.filter_cons_of_pos (decide_eq_true (Groups.position_operations ho))
  have hstart := horder.own p hm
  rw [performedAt_append, hlast, Planned.operations, List.map_cons] at hstart
  cases hfirst : performedAt before p.position with
  | nil =>
      rw [hfirst, List.nil_append, List.cons_prefix_cons] at hstart
      rw [hstart.1] at htask
      cases htask
  | cons o more =>
      rw [hfirst, List.cons_append, List.cons_prefix_cons] at hstart
      have hmem : o ∈ performedAt before p.position := hfirst ▸ List.mem_cons_self
      obtain ⟨d, hd, rfl⟩ := List.mem_map.mp (List.mem_filter.mp hmem).1
      exact ⟨d, hd, by rw [hstart.1]⟩

/-! ## 3. The files of an expansion -/

namespace Expansion

theorem ne_dot {name : String} (h : Name.Fragment name) (back : String) : name ++ back ≠ "." := by
  obtain ⟨c, rest, hl, hc, -⟩ := h
  intro he
  rw [← String.toList_inj, String.toList_append, hl] at he
  have hdot : c = '.' := (List.cons.inj he).1
  rw [hdot] at hc
  revert hc
  unfold Name.Start
  decide

section InPlace

variable {r : Renderer} (root : String)

/-- Files whose paths are names joined to a directory stand right in it, seen from a root. -/
theorem parent_of_paths {front directory : String} (names : List String) {files : List Artifact}
    (hb : Path.IsBase front) (hr : Path.IsRelative front) (hd : Name.Fragment directory)
    (hn : ∀ name ∈ names, Path.IsName name ∧ name ≠ ".")
    (hf : files.map Artifact.path = names.map (Path.join (Path.join front directory))) :
    ∀ a ∈ files.map fun a => { a with path := Path.join root a.path },
      Path.parent? a.path = some (Path.join root (Path.join front directory)) := by
  intro a ha
  obtain ⟨file, hm, rfl⟩ := List.mem_map.mp ha
  have hpath : file.path ∈ files.map Artifact.path := List.mem_map_of_mem hm
  rw [hf] at hpath
  obtain ⟨name, hname, he⟩ := List.mem_map.mp hpath
  obtain ⟨hn, hdot⟩ := hn name hname
  have hdirectory : directory ≠ "." := by
    have := ne_dot hd ""
    rwa [String.append_empty] at this
  show Path.parent? (Path.join root file.path) = _
  rw [← he]
  exact Path.parent?_join hb hr (isName_fragment hd) hdirectory hn hdot root

theorem parent_layoutFiles {key : String} {layout : Layout} {files : List Artifact} (hk : Name.Fragment key)
    (h : layoutFiles r key layout = .ok files) : ∀ a ∈ files.map fun a => { a with path := Path.join root a.path },
      Path.parent? a.path = some (Path.join root (layoutDirectory key)) := by
  have hlayouts : Path.IsName "Layouts" := ⟨by decide, by decide⟩
  refine parent_of_paths root [Name.layout key ++ ".jsx", Name.layout key ++ ".module.css"]
    (Path.isBase_join isName_src.isBase hlayouts)
    (Path.isRelative_join isName_src.isBase isName_src.isRelative hlayouts) hk.layout (fun name hname => ?_)
    (paths_layoutFiles h)
  rcases List.mem_pair.mp hname with rfl | rfl
  · exact ⟨isName_component hk.layout, ne_dot hk.layout _⟩
  · exact ⟨isName_stylesheet hk.layout, ne_dot hk.layout _⟩

theorem parent_viewFiles {layout key : String} {info : ViewInfo} {files : List Artifact} (hl : Name.Fragment layout)
    (hk : Name.Fragment key) (h : viewFiles r layout key info = .ok files) :
    ∀ a ∈ files.map fun a => { a with path := Path.join root a.path },
      Path.parent? a.path = some (Path.join root (viewDirectory layout key)) := by
  have hviews : Path.IsName "Views" := ⟨by decide, by decide⟩
  have hbase := Path.isBase_join isName_src.isBase hviews
  have hrelative := Path.isRelative_join isName_src.isBase isName_src.isRelative hviews
  refine parent_of_paths root [Name.view key ++ ".jsx", "index.jsx", Name.view key ++ ".module.css"]
    (Path.isBase_join hbase (isName_fragment hl.capitalize))
    (Path.isRelative_join hbase hrelative (isName_fragment hl.capitalize)) hk.view (fun name hname => ?_)
    (paths_viewFiles h)
  rw [List.mem_cons, List.mem_pair] at hname
  rcases hname with rfl | rfl | rfl
  · exact ⟨isName_component hk.view, ne_dot hk.view _⟩
  · exact ⟨isName_index, by decide⟩
  · exact ⟨isName_stylesheet hk.view, ne_dot hk.view _⟩

theorem PlanOfViews.inPlace {layout : String} {views : Views} {g : Groups} (h : PlanOfViews r layout views g)
    (hl : Name.Fragment layout) (hk : ∀ key ∈ views.keys, Name.Fragment key) : (g.under root).InPlace := by
  induction h with
  | nil => trivial
  | leaf hf hr ih =>
      have hkey := hk _ List.mem_cons_self
      exact ⟨parent_viewFiles root hl hkey hf, trivial, ih fun k hm => hk k (List.mem_cons_of_mem _ hm)⟩
  | container hf hn hr ihn ih =>
      rw [Views.keys_container, List.forall_mem_cons, List.forall_mem_append] at hk
      exact ⟨parent_viewFiles root hl hk.1 hf, ihn hk.2.1, ih hk.2.2⟩

theorem PlanOfLayouts.inPlace {layouts : Keyed Layout} {g : Groups} (h : PlanOfLayouts r layouts g)
    (hk : ∀ entry ∈ layouts, Name.Fragment entry.1 ∧ ∀ key ∈ entry.2.views.keys, Name.Fragment key) :
    (g.under root).InPlace := by
  induction h with
  | nil => trivial
  | cons hf hn hr ih =>
      rw [List.forall_mem_cons] at hk
      exact ⟨parent_layoutFiles root hk.1.1 hf, hn.inPlace root hk.1.1 hk.1.2, ih hk.2⟩

/-- **The files of an expansion stand right in the directories of their groups.** -/
theorem inPlace_ofSpec {spec : Spec} {groups : Groups} (ha : spec.Accepted) (h : ofSpec r spec = .ok groups) :
    (groups.under root).InPlace :=
  (planOfLayouts h).inPlace root fun _ he =>
    ⟨ha.keys _ (List.mem_map_of_mem (f := Prod.fst) he), (ha.layouts _ he).viewKeys⟩

end InPlace

end Expansion

/-! ## 4. Every interleaving -/

/-- **Every interleaving carries out the plan in order**, whatever the sink answers as long as it is no error; and for
    the expansion of an accepted specification it makes the parent directory of every file ahead of it. -/
theorem written_in_order {g : Groups} {root : String} {events : List (Performed ε)} {w : Writers ε}
    (h : Run (start (g.under root)) events w) (he : ∀ p ∈ events, p.error = none) :
    InOrder (g.under root) events w ∧ (g.under root).count = g.count ∧
      ∀ {defaults : Defaults} {document : Document} {spec : Spec} {r : Renderer},
        Spec.validate defaults document = .ok spec → Expansion.ofSpec r spec = .ok g → ParentsFirst events := by
  refine ⟨inOrder_of_run h he, ?_, fun hv hg => ?_⟩
  · rw [Groups.count, Groups.counts_under]
    rfl
  · exact parentsFirst_of_run h he (Expansion.inPlace_ofSpec root (Spec.accepted_of_validate hv) hg)

/-- The writers of a layout with a view and of a layout without one take turns. -/
theorem turns_in_order : ∃ spec g events w,
    Spec.validate .standard (.map [("home", .map [("routes", .map [("list", .map [])])]), ("admin", .map [])]) =
      .ok spec ∧
    Expansion.ofSpec .builtin spec = .ok g ∧
    Run (start (g.under "app") : Writers Unit) events w ∧ (∀ p ∈ events, p.error = none) ∧ w.Returns (.ok 7) ∧
    events.map (fun e => e.operation.position) = [[1], [0], [0], [1], [0], [0, 0], [1], [0, 0], [0, 0], [0, 0]] ∧
    InOrder (g.under "app") events w ∧ (g.under "app").count = g.count ∧ ParentsFirst events := by
  obtain ⟨spec, g, hv, hg, events, w, hrun, hok, hreturns, hpositions⟩ : ∃ spec g,
      Spec.validate .standard (.map [("home", .map [("routes", .map [("list", .map [])])]), ("admin", .map [])]) =
        .ok spec ∧
      Expansion.ofSpec .builtin spec = .ok g ∧ ∃ events w, Run (start (g.under "app") : Writers Unit) events w ∧
        (∀ p ∈ events, p.error = none) ∧ w.Returns (.ok 7) ∧
        events.map (fun e => e.operation.position) =
          [[1], [0], [0], [1], [0], [0, 0], [1], [0, 0], [0, 0], [0, 0]] :=
    ⟨_, _, rfl, rfl, _, _, .perform (.besideWorking .done) <| .perform .done <| .perform .done <|
      .perform (.besideWorking .done) <| .perform .done <| .perform (.nested .done) <|
      .perform (.besideJoining .done) <| .perform (.nested .done) <| .perform (.nested .done) <|
      .perform (.nested .done) <| .refl _, by decide, @Returns.ok _ _ [5, 2] rfl, rfl⟩
  obtain ⟨horder, hcount, hparents⟩ := written_in_order hrun hok
  exact ⟨spec, g, events, w, hv, hg, hrun, hok, hreturns, hpositions, horder, hcount, hparents hv hg⟩

/-! ## 5. One after the other -/

/-- The sink that notes what it is asked for and never fails. -/
def note (task : Task) : StateM (List Task) Unit := modify (· ++ [task])

theorem forM_note (tasks noted : List Task) (root : String) :
    (tasks.forM fun task => note (task.under root)).run noted = ((), noted ++ tasks.map (Task.under root)) := by
  induction tasks generalizing noted with
  | nil =>
      rw [List.map_nil, List.append_nil]
      rfl
  | cons task rest ih =>
      have hstep : ((task :: rest).forM fun task => note (task.under root)).run noted =
          (rest.forM fun task => note (task.under root)).run (noted ++ [task.under root]) := rfl
      rw [hstep, ih, List.append_assoc]
      rfl

/-- **Carrying out a plan task by task is one of the interleavings**, and one that finishes. -/
theorem writeTo_interleaves (g : Groups) (root : String) : ∃ (events : List (Performed ε)) (w : Writers ε),
    Run (start (g.under root)) events w ∧ (∀ p ∈ events, p.error = none) ∧ w.Returns (.ok g.count) ∧
      (g.writeTo note root).run [] = (g.count, events.map fun e => e.operation.task) := by
  obtain ⟨w, hrun, hsound, hleft, hcounts⟩ := run_in_order (sound_start (g.under root)) rfl
  have hall := (counts?_eq_some_iff [] 0 hsound _).mpr ⟨hleft, rfl⟩
  rw [hcounts, counts_start, Groups.counts_under] at hall
  refine ⟨_, w, hrun, fun p hp => ?_, .ok hall, ?_⟩
  · obtain ⟨o, -, rfl⟩ := List.mem_map.mp hp
    rfl
  · have hwrite : (g.writeTo note root).run [] =
        (g.count, ((g.tasks.forM fun task => note (task.under root)).run []).2) := rfl
    rw [hwrite, forM_note, List.nil_append, ← Groups.tasks_under, ← Groups.task_operations [] 0, operations_start,
      List.map_map]
    rfl

end RouteScaffold
