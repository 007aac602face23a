import RouteScaffold.Proofs.Expansion.Written
import RouteScaffold.Proofs.Run.Parts
import RouteScaffold.Proofs.Run.WrittenPaths

/-!
# Where the tasks of a run stand

The stages that write work below the directory of the project, each writes at different places, and right in the sources
they write a single file (`Placement`, `Plan.placement`).
-/

namespace RouteScaffold

open Disk

/-- What is known of the places at which the tasks of a stage write. -/
structure Placement (here : Place) (root : String) (tasks : List Task) : Prop where
  inside : ∀ t ∈ tasks, t.Inside here root
  /-- No two tasks write different files at one place. -/
  once : ∀ t ∈ tasks, ∀ t' ∈ tasks, ∀ x c c', t.leaves here x = some (.file c) → t'.leaves here x = some (.file c') →
    c = c'
  /-- Right in the sources only the root of the application is written. -/
  top : ∀ t ∈ tasks, ∀ name c, t.leaves here (target here root ++ ["src", name]) = some (.file c) →
    name = "App.js" ∧ ∃ text, t = .writeFile (Path.join root "src/App.js") text

/-! ## 1. Planned files -/

/-- The tasks of a plan are well placed if its paths are. -/
theorem Groups.placement {g : Groups} (hi : ∀ t ∈ g.tasks, Path.Inner t.path) (hp : ∀ a ∈ g.files, Path.Plain a.path)
    (hn : (g.files.map Artifact.path).Nodup)
    (ht : ∀ a ∈ g.files, ∀ name, Path.segments a.path = ["src", name] → a.path = "src/App.js") (here : Place)
    (root : String) : Placement here root (g.under root).tasks where
  inside t ht := by
    rw [tasks_under] at ht
    obtain ⟨task, hm, rfl⟩ := List.mem_map.mp ht
    exact Task.inside_under (hi task hm) here root
  once := written_once hp root here hn
  top t htask name c hleaves := by
    obtain ⟨a, ha, rfl, hx, -⟩ := file_of_leaves hp root here htask hleaves
    have hsegments := List.append_cancel_left hx
    have hpath := ht a ha name hsegments.symm
    have happ : Path.segments "src/App.js" = ["src", "App.js"] := by decide
    rw [hpath, happ] at hsegments
    refine ⟨(List.cons.inj (List.cons.inj hsegments).2).1, a.content.text, ?_⟩
    rw [← hpath]
    rfl

namespace ProjectFiles

theorem plain_all {path : String} (h : path ∈ all.map Prod.fst) : Path.Plain path := by
  have hall : ∀ segments ∈ (all.map Prod.fst).map Path.segments, ∀ segment ∈ segments, Path.Leads segment := by
    rw [segments_all]
    decide
  exact hall _ (List.mem_map_of_mem h)

theorem inner_tasks {t : Task} (h : t ∈ groups.tasks) : Path.Inner t.path := by
  obtain ⟨file, hf, hfile⟩ := mem_tasks_plan.mp h
  have hinner := (plain_all (List.mem_map_of_mem hf)).inner
  rcases hfile with rfl | rfl
  · show Path.Inner ((Path.parent? file.1).getD "")
    cases hparent : Path.parent? file.1 with
    | none => exact .empty
    | some parent => exact hinner.parent? hparent
  · exact hinner

theorem placement (here : Place) (root : String) : Placement here root (groups.under root).tasks := by
  have hpaths : groups.files.map Artifact.path = all.map Prod.fst := paths_plan all
  have hmem : ∀ a ∈ groups.files, a.path ∈ all.map Prod.fst := fun a ha => hpaths ▸ List.mem_map_of_mem ha
  refine Groups.placement (fun t => inner_tasks) (fun a ha => plain_all (hmem a ha)) (by rw [hpaths]; exact nodup_all)
    (fun a ha name hs => Path.segments_inj ?_) here root
  have happ : Path.segments "src/App.js" = ["src", "App.js"] := by decide
  have hm := List.mem_map_of_mem (f := Path.segments) (hmem a ha)
  rw [segments_all, hs] at hm
  simp only [List.mem_cons, List.cons.injEq, List.not_mem_nil] at hm
  simp at hm
  rw [hs, happ, hm]

end ProjectFiles

namespace Expansion

variable {r : Renderer} {spec : Spec} {g : Groups}

/-- The directories of an expansion are those of its layouts and views. -/
theorem PlanOfViews.directory {layout path : String} {views : Views} (h : PlanOfViews r layout views g)
    (hm : .makeDirectory path ∈ g.tasks) : ∃ key ∈ views.keys, path = viewDirectory layout key := by
  have hfiles : ∀ files : List Artifact, .makeDirectory path ∉ files.map Artifact.task := by
    intro files hm
    obtain ⟨_, -, he⟩ := List.mem_map.mp hm
    cases he
  induction h with
  | nil => cases hm
  | @leaf key info rest files more hf hr ih =>
      rw [Groups.tasks, Groups.tasks, List.append_nil, List.mem_append, List.mem_cons] at hm
      rcases hm with (he | hm) | hm
      · cases he
        exact ⟨key, List.mem_cons_self, rfl⟩
      · exact absurd hm (hfiles files)
      · obtain ⟨other, ho, hpath⟩ := ih hm
        exact ⟨other, List.mem_cons_of_mem _ ho, hpath⟩
  | @container key info children rest files nested more hf hn hr ihn ih =>
      rw [Groups.tasks, List.mem_append, List.mem_append, List.mem_cons] at hm
      rw [Views.keys_container]
      rcases hm with ((he | hm) | hm) | hm
      · cases he
        exact ⟨key, List.mem_cons_self, rfl⟩
      · exact absurd hm (hfiles files)
      · obtain ⟨other, ho, hpath⟩ := ihn hm
        exact ⟨other, List.mem_cons_of_mem _ (List.mem_append_left _ ho), hpath⟩
      · obtain ⟨other, ho, hpath⟩ := ih hm
        exact ⟨other, List.mem_cons_of_mem _ (List.mem_append_right _ ho), hpath⟩

theorem PlanOfLayouts.directory {path : String} {layouts : Keyed Layout} (h : PlanOfLayouts r layouts g)
    (hm : .makeDirectory path ∈ g.tasks) : ∃ entry ∈ layouts,
      path = layoutDirectory entry.1 ∨ ∃ key ∈ entry.2.views.keys, path = viewDirectory entry.1 key := by
  induction h with
  | nil => cases hm
  | cons hf hn hr ih =>
      rw [Groups.tasks, List.mem_append, List.mem_append, List.mem_cons] at hm
      rcases hm with ((he | hm) | hm) | hm
      · cases he
        exact ⟨_, List.mem_cons_self, .inl rfl⟩
      · obtain ⟨_, -, he⟩ := List.mem_map.mp hm
        cases he
      · exact ⟨_, List.mem_cons_self, .inr (hn.directory hm)⟩
      · obtain ⟨entry, he, hpath⟩ := ih hm
        exact ⟨entry, List.mem_cons_of_mem _ he, hpath⟩

variable (ha : spec.Accepted) (hg : ofSpec r spec = .ok g)

include ha hg

/-- The segments of a directory are those of a layout's or of a view's. -/
theorem segments_of_directory {path : String} (h : .makeDirectory path ∈ g.tasks) : ∃ entry ∈ spec.layouts,
    Path.segments path = ["src", "Layouts", Name.layout entry.1] ∨
      ∃ key ∈ entry.2.views.keys, Path.segments path = ["src", "Views", Name.capitalize entry.1, Name.view key] := by
  obtain ⟨entry, he, hpath⟩ := (planOfLayouts hg).directory h
  have hkey := ha.keys _ (List.mem_map_of_mem (f := Prod.fst) he)
  rcases hpath with rfl | ⟨key, hk, rfl⟩
  · exact ⟨entry, he, .inl (layoutDirectory_segments hkey).2⟩
  · exact ⟨entry, he, .inr ⟨key, hk, (viewDirectory_segments hkey ((ha.layouts _ he).viewKeys key hk)).2⟩⟩

/-- The names of a directory are all like identifiers. -/
theorem fragments_of_directory {path : String} (h : .makeDirectory path ∈ g.tasks) :
    ∀ segment ∈ Path.segments path, Name.Fragment segment := by
  have hfixed : ∀ name ∈ ["src", "Layouts", "Views"], Name.Fragment name := by
    intro name hm
    have hall : ∀ name ∈ ["src", "Layouts", "Views"], Name.isIdentifier name = true := by decide
    exact (Name.isIdentifier_iff name).mp (hall name hm)
  obtain ⟨entry, he, hsegments⟩ := segments_of_directory ha hg h
  have hkey := ha.keys _ (List.mem_map_of_mem (f := Prod.fst) he)
  rcases hsegments with hs | ⟨key, hk, hs⟩
  · rw [hs]
    simp only [List.forall_mem_cons]
    exact ⟨hfixed _ (by decide), hfixed _ (by decide), hkey.layout, List.forall_mem_nil _⟩
  · rw [hs]
    simp only [List.forall_mem_cons]
    exact ⟨hfixed _ (by decide), hfixed _ (by decide), hkey.capitalize, ((ha.layouts _ he).viewKeys key hk).view,
      List.forall_mem_nil _⟩

theorem plain_directory {path : String} (h : .makeDirectory path ∈ g.tasks) : Path.Plain path :=
  fun segment hs => leads_name (fragments_of_directory ha hg h segment hs)

theorem inner_tasks {t : Task} (h : t ∈ g.tasks) : Path.Inner t.path := by
  cases t with
  | writeFile path text =>
      obtain ⟨a, hm, rfl, -⟩ := Groups.mem_files_of_tasks h
      exact ((placed_files ha hg a hm).plain ha).inner
  | makeDirectory path => exact (plain_directory ha hg h).inner

theorem placement (here : Place) (root : String) : Placement here root (g.under root).tasks := by
  refine Groups.placement (fun t => inner_tasks ha hg) (fun a hm => (placed_files ha hg a hm).plain ha)
    (nodup_files ha hg) (fun a hm name hs => ?_) here root
  cases placed_files ha hg a hm with
  | layout _ _ hsegments =>
      rw [hs] at hsegments
      cases hsegments
  | view _ _ _ hsegments =>
      rw [hs] at hsegments
      cases hsegments

end Expansion

/-! ## 2. Stages -/

namespace Plan

theorem placement_routingTasks (plan : Plan) (source : String) (here : Place) :
    Placement here plan.request.directory (plan.routingTasks source) := by
  have hplain : Path.Plain routingModulePath := by
    rw [Path.Plain, segments_routingModulePath]
    decide
  -- The last task writes the file; one ahead of it makes a directory on the way.
  have htasks : ∀ t ∈ plan.routingTasks source,
      t = .writeFile (Path.join plan.request.directory routingModulePath) source ∨
        ∃ parent, Path.parent? (Path.join plan.request.directory routingModulePath) = some parent ∧
          t = .makeDirectory parent := by
    intro t ht
    rcases List.mem_append.mp ht with ht | ht
    · obtain ⟨parent, hparent, rfl⟩ := List.mem_map.mp ht
      exact .inr ⟨parent, Option.mem_toList.mp hparent, rfl⟩
    · exact .inl (List.mem_singleton.mp ht)
  have hfile : ∀ t ∈ plan.routingTasks source, ∀ x c, t.leaves here x = some (.file c) →
      t = .writeFile (Path.join plan.request.directory routingModulePath) source := by
    intro t ht x c hleaves
    rcases htasks t ht with rfl | ⟨parent, -, rfl⟩
    · rfl
    · have hentry := (Task.leaves_makeDirectory.mp hleaves).2
      cases hentry
  refine ⟨fun t ht => ?inside, fun t ht t' ht' x c c' hc hc' => ?once, fun t ht name c hc => ?top⟩
  case inside =>
    rcases htasks t ht with rfl | ⟨parent, hparent, rfl⟩
    · exact Task.inside_under (t := .writeFile routingModulePath source) hplain.inner here _
    · intro x hx
      obtain ⟨e, he⟩ := Option.ne_none_iff_exists'.mp hx
      have hway := way_parent? hparent here (Task.leaves_makeDirectory.mp he).1
      exact (way_inner hplain.inner here _ hway).imp_right And.left
  case once =>
    have h := hfile t ht x c hc
    have h' := hfile t' ht' x c' hc'
    rw [h] at hc
    rw [h', hc] at hc'
    exact Entry.file.inj (Option.some_inj.mp hc')
  case top =>
    have hplace := (Task.leaves_writeFile.mp (hfile t ht _ c hc ▸ hc)).1
    rw [target_plain hplain, segments_routingModulePath] at hplace
    have hsegments := List.append_cancel_left hplace
    cases hsegments

/-- **The tasks of every stage that writes are well placed.** -/
theorem placement {plan : Plan} (ha : plan.spec.Accepted) {stage : Stage} {tasks : List Task}
    (h : plan.tasks? stage = some tasks) (here : Place) : Placement here plan.request.directory tasks := by
  rcases tasks?_cases h with ⟨-, htasks⟩ | ⟨-, g, hg, htasks⟩ | ⟨-, source, -, htasks⟩
  · rw [htasks]
    exact ProjectFiles.placement here _
  · rw [htasks]
    exact Expansion.placement ha hg here _
  · rw [htasks]
    exact plan.placement_routingTasks source here

end Plan

end RouteScaffold
