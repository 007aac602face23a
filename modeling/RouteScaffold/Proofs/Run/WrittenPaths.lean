import RouteScaffold.Proofs.Expansion.Paths
import RouteScaffold.Run.Stage

/-!
# The paths that a run writes

A run writes the files of every project, the files of the expansion and the routing module
(`Plan.writtenPaths`). The files of the expansion differ from each other; they share the directories of the generated
sources with the files of every project, and there one place is not kept free: `no_path_twice_iff` says for which
specifications two files have one path.
-/

namespace RouteScaffold

/-- The paths of the files that a run writes for an expansion. -/
def Plan.writtenPaths (expansion : Groups) : List String :=
  ProjectFiles.groups.files.map Artifact.path ++ expansion.files.map Artifact.path ++ [Plan.routingModulePath]

/-! ## 1. The files of every project -/

namespace ProjectFiles

/-- Planning keeps the paths. -/
theorem paths_plan (files : List (String × String)) :
    (plan files).files.map Artifact.path = files.map Prod.fst := by
  induction files with
  | nil => rfl
  | cons file rest ih =>
      obtain ⟨path, text⟩ := file
      rw [List.map_cons, ← ih, plan]
      simp only
      cases plan rest with
      | nil => rfl
      | group next files nested groups =>
          simp only
          by_cases h : next = (Path.parent? path).getD ""
          · rw [if_pos h]
            simp [Groups.files]
          · rw [if_neg h]
            simp [Groups.files]

/-- **The tasks of some files**: to make their directories and to write them. -/
theorem mem_tasks_plan {files : List (String × String)} {t : Task} : t ∈ (plan files).tasks ↔
    ∃ file ∈ files, t = .makeDirectory ((Path.parent? file.1).getD "") ∨ t = .writeFile file.1 file.2 := by
  induction files with
  | nil => simp [plan, Groups.tasks]
  | cons file rest ih =>
      obtain ⟨path, text⟩ := file
      simp only [List.mem_cons, exists_eq_or_imp, ← ih]
      rw [plan]
      cases plan rest with
      | nil => simp [Groups.tasks, Artifact.task, Content.text]
      | group next files nested groups =>
          dsimp only
          by_cases h : next = (Path.parent? path).getD ""
          · rw [if_pos h, ← h]
            simp only [Groups.tasks, List.map_cons, List.mem_append, List.mem_cons, Artifact.task, Content.text]
            grind
          · rw [if_neg h]
            simp only [Groups.tasks, List.map_cons, List.map_nil, List.mem_append, List.mem_cons, List.not_mem_nil,
              Artifact.task, Content.text]
            grind

theorem segments_ofList (chars : List Char) :
    Path.segments (String.ofList chars) = (Path.pieces chars).map String.ofList := by
  rw [Path.segments, String.toList_ofList]

/-- The segments of the paths. -/
theorem segments_all : (all.map Prod.fst).map Path.segments =
    [["src", "App.js"], ["src", "Assets", "logos", "logo-black.svg"], ["src", "Assets", "logos", "logo-compact.svg"],
     ["src", "Components", "UIKit", "Navbar", "Navbar.jsx"],
     ["src", "Components", "UIKit", "Navbar", "Navbar.module.css"],
     ["src", "Components", "UIKit", "Sidebar", "Sidebar.jsx"],
     ["src", "Components", "UIKit", "Sidebar", "Sidebar.module.css"], ["src", "Data", "config.js"],
     ["src", "Hooks", "useMediaQuery.js"], ["src", "Utils", "classNames.js"],
     ["src", "Views", "Generic", "NotFoundView", "NotFoundView.jsx"],
     ["src", "Views", "Generic", "NotFoundView", "NotFoundView.module.css"],
     ["src", "Views", "Generic", "NotFoundView", "index.jsx"]] := by
  simp only [all, List.map_cons, List.map_nil]
  -- Path by path the literal becomes its characters: taking it apart by evaluation is slow.
  repeat rw [segments_ofList]
  rfl

theorem nodup_all : (all.map Prod.fst).Nodup := by
  refine List.Nodup.of_map Path.segments ?_
  rw [segments_all]
  decide

/-- No file of every project is among the layouts. -/
theorem not_layout {path name last : String} (hp : path ∈ all.map Prod.fst) :
    Path.segments path ≠ ["src", "Layouts", name, last] := by
  intro hs
  have hm := List.mem_map_of_mem (f := Path.segments) hp
  rw [segments_all, hs] at hm
  simp at hm

/-- **The only view among the files of every project** is that of paths without a route. -/
theorem only_view {path layout name last : String} (hp : path ∈ all.map Prod.fst)
    (hs : Path.segments path = ["src", "Views", layout, name, last]) :
    layout = "Generic" ∧ name = "NotFoundView" := by
  have hm := List.mem_map_of_mem (f := Path.segments) hp
  rw [segments_all, hs] at hm
  simp only [List.mem_cons, List.cons.injEq, List.not_mem_nil] at hm
  simp at hm
  rcases hm with ⟨h1, h2, -⟩ | ⟨h1, h2, -⟩ | ⟨h1, h2, -⟩
  · exact ⟨h1, h2⟩
  · exact ⟨h1, h2⟩
  · exact ⟨h1, h2⟩

end ProjectFiles

/-! ## 2. The routing module -/

theorem Plan.segments_routingModulePath : Path.segments Plan.routingModulePath = ["src", "Data", "routes.js"] := by
  decide

theorem Plan.routingModulePath_not_project : Plan.routingModulePath ∉ ProjectFiles.all.map Prod.fst := by
  intro hp
  have hm := List.mem_map_of_mem (f := Path.segments) hp
  rw [ProjectFiles.segments_all, segments_routingModulePath] at hm
  simp at hm

theorem Plan.routingModulePath_not_expansion {spec : Spec} (h : spec.Accepted) :
    Plan.routingModulePath ∉ Expansion.paths spec := by
  intro hp
  obtain ⟨entry, he, hp⟩ := List.mem_flatMap.mp hp
  rcases Expansion.segments_of_mem_pathsBelow (h.keys _ (List.mem_map_of_mem he)) (h.layouts _ he) hp with
    ⟨last, hs⟩ | ⟨view, -, last, hs⟩
  · rw [segments_routingModulePath] at hs
    simp at hs
  · rw [segments_routingModulePath] at hs
    simp at hs

/-! ## 3. One path, two files -/

/-- A view of the specification has the place of the view of paths without a route. -/
def Spec.HasNotFound (spec : Spec) : Prop :=
  ∃ entry ∈ spec.layouts, Name.capitalize entry.1 = "Generic" ∧
    ∃ key ∈ entry.2.views.keys, Name.capitalize key = "NotFound"

instance (spec : Spec) : Decidable spec.HasNotFound :=
  inferInstanceAs (Decidable (∃ entry ∈ spec.layouts, Name.capitalize entry.1 = "Generic" ∧
    ∃ key ∈ entry.2.views.keys, Name.capitalize key = "NotFound"))

/-- **Where the expansion meets the files of every project.** -/
theorem Expansion.meets_project_iff {spec : Spec} (h : spec.Accepted) :
    (∃ path ∈ ProjectFiles.all.map Prod.fst, path ∈ Expansion.paths spec) ↔ spec.HasNotFound := by
  constructor
  · rintro ⟨path, hproject, hp⟩
    obtain ⟨entry, he, hp⟩ := List.mem_flatMap.mp hp
    rcases Expansion.segments_of_mem_pathsBelow (h.keys _ (List.mem_map_of_mem he)) (h.layouts _ he) hp with
      ⟨last, hs⟩ | ⟨view, hv, last, hs⟩
    · exact absurd hs (ProjectFiles.not_layout hproject)
    · obtain ⟨hlayout, hview⟩ := ProjectFiles.only_view hproject hs
      have hname : Name.view view = Name.view "NotFound" := hview.trans (by decide)
      exact ⟨entry, he, hlayout, view, hv, (Name.view_inj.mp hname).trans (by decide)⟩
  · rintro ⟨entry, he, hlayout, key, hk, hkey⟩
    refine ⟨"src/Views/Generic/NotFoundView/index.jsx", by decide, ?_⟩
    have hpath : Path.join (Expansion.viewDirectory entry.1 key) "index.jsx" =
        "src/Views/Generic/NotFoundView/index.jsx" := by
      have hf := h.keys _ (List.mem_map_of_mem he)
      rw [Expansion.index_eq hf ((h.layouts _ he).viewKeys key hk), Name.view, hlayout, hkey]
      decide
    refine List.mem_flatMap.mpr ⟨entry, he, List.mem_append_right _ (List.mem_flatMap.mpr ⟨key, hk, ?_⟩)⟩
    rw [← hpath, Expansion.viewPaths]
    exact List.mem_cons_of_mem _ List.mem_cons_self

theorem Plan.nodup_writtenPaths {spec : Spec} (h : spec.Accepted) {r : Renderer} {groups : Groups}
    (hg : Expansion.ofSpec r spec = .ok groups) : (Plan.writtenPaths groups).Nodup ↔ ¬spec.HasNotFound := by
  rw [Plan.writtenPaths, Expansion.paths_ofSpec hg, ProjectFiles.groups, ProjectFiles.paths_plan,
    ← Expansion.meets_project_iff h]
  constructor
  · rintro hn ⟨path, hproject, hexpansion⟩
    have hboth := (List.nodup_append.mp (List.nodup_append.mp hn).1).2.2
    exact hboth path hproject path hexpansion rfl
  · intro hne
    refine List.nodup_append.mpr ⟨List.nodup_append.mpr ⟨ProjectFiles.nodup_all, Expansion.nodup_paths h, ?_⟩,
      by simp, ?_⟩
    · rintro path hproject _ hexpansion rfl
      exact hne ⟨path, hproject, hexpansion⟩
    · rintro path hp _ hmodule rfl
      rw [List.mem_singleton.mp hmodule] at hp
      rcases List.mem_append.mp hp with hp | hp
      · exact Plan.routingModulePath_not_project hp
      · exact Plan.routingModulePath_not_expansion h hp

/-- **When a run writes no path twice**: exactly when no layout that is capitalized `Generic` has a view that is
    capitalized `NotFound`. -/
theorem Plan.no_path_twice_iff {defaults : Defaults} {document : Document} {spec : Spec}
    (h : Spec.validate defaults document = .ok spec) :
    (∃ groups, Expansion.ofSpec .builtin spec = .ok groups) ∧
    ∀ (r : Renderer) (groups : Groups), Expansion.ofSpec r spec = .ok groups →
      ((Plan.writtenPaths groups).Nodup ↔ ¬spec.HasNotFound) :=
  ⟨Expansion.ofSpec_builtin spec, fun _ _ hg => Plan.nodup_writtenPaths (Spec.accepted_of_validate h) hg⟩

/-- A view that is capitalized `NotFound` below another layout takes no place of a file of every project. -/
theorem Plan.no_path_twice_elsewhere : ∃ spec groups,
    Spec.validate .standard (.map [("home", .map [("routes", .map [("notFound", .map [])])])]) = .ok spec ∧
      Expansion.ofSpec .builtin spec = .ok groups ∧ (Plan.writtenPaths groups).Nodup := by
  have h : Spec.validate .standard (.map [("home", .map [("routes", .map [("notFound", .map [])])])]) = .ok _ := rfl
  obtain ⟨⟨groups, hg⟩, hnodup⟩ := Plan.no_path_twice_iff h
  exact ⟨_, groups, h, hg, (hnodup .builtin groups hg).mpr (by decide)⟩

/-- A specification is accepted whose view overwrites the view of paths without a route. -/
theorem Plan.notFound_overwritten : ∃ spec groups,
    Spec.validate .standard (.map [("generic", .map [("routes", .map [("notFound", .map [])])])]) = .ok spec ∧
      Expansion.ofSpec .builtin spec = .ok groups ∧ ¬(Plan.writtenPaths groups).Nodup := by
  have h : Spec.validate .standard (.map [("generic", .map [("routes", .map [("notFound", .map [])])])]) = .ok _ := rfl
  obtain ⟨groups, hg⟩ := Expansion.ofSpec_builtin (Spec.ofDocument .standard
    (.map [("generic", .map [("routes", .map [("notFound", .map [])])])]))
  refine ⟨_, groups, h, hg, fun hn => ?_⟩
  exact (Plan.nodup_writtenPaths (Spec.accepted_of_validate h) hg).mp hn (by decide)

end RouteScaffold
