import RouteScaffold.Proofs.Expansion.Planner
import RouteScaffold.Proofs.Schema.Accepted
import RouteScaffold.Proofs.Segments

/-!
# The paths of an expansion

* `paths`: the paths of the files that a specification stands for, written down from its keys alone;
* `paths_ofSpec`: they are the paths of the expansion, whatever the renderer, in the same order;
* `segments_layoutPaths`, `segments_viewPaths`: their segments;
* `nodup_paths`: for an accepted specification they differ.
-/

namespace RouteScaffold.Expansion

/-! ## 1. The paths -/

/-- The paths of a layout's own files. -/
def layoutPaths (key : String) : List String :=
  [component (layoutDirectory key) (Name.layout key), stylesheet (layoutDirectory key) (Name.layout key)]

/-- The paths of a view's files. -/
def viewPaths (layout key : String) : List String :=
  [component (viewDirectory layout key) (Name.view key), Path.join (viewDirectory layout key) "index.jsx",
    stylesheet (viewDirectory layout key) (Name.view key)]

/-- The paths of the files of a layout and of its views. -/
def pathsBelow (key : String) (layout : Layout) : List String :=
  layoutPaths key ++ layout.views.keys.flatMap (viewPaths key)

/-- The paths of the files of a specification. -/
def paths (spec : Spec) : List String := spec.layouts.flatMap fun entry => pathsBelow entry.1 entry.2

section Files

variable {r : Renderer}

theorem paths_layoutFiles {key : String} {layout : Layout} {files : List Artifact}
    (h : layoutFiles r key layout = .ok files) : files.map Artifact.path = layoutPaths key := by
  obtain ⟨text, -, h⟩ := bind_eq_ok.mp h
  cases h
  rw [layoutPaths, List.map_cons, List.map_cons, List.map_nil]

theorem paths_viewFiles {layout key : String} {info : ViewInfo} {files : List Artifact}
    (h : viewFiles r layout key info = .ok files) : files.map Artifact.path = viewPaths layout key := by
  obtain ⟨text, -, h⟩ := bind_eq_ok.mp h
  obtain ⟨index, -, h⟩ := bind_eq_ok.mp h
  cases h
  rw [viewPaths, List.map_cons, List.map_cons, List.map_cons, List.map_nil]

theorem PlanOfViews.paths {layout : String} {views : Views} {g : Groups} (h : PlanOfViews r layout views g) :
    g.files.map Artifact.path = views.keys.flatMap (viewPaths layout) := by
  induction h with
  | nil => rfl
  | leaf hf hr ih =>
      rw [Groups.files, List.map_append, List.map_append, paths_viewFiles hf, ih, Groups.files, List.map_nil,
        List.append_nil]
      rfl
  | container hf hn hr ihn ih =>
      rw [Groups.files, List.map_append, List.map_append, paths_viewFiles hf, ihn, ih, Views.keys_container,
        List.flatMap_cons, List.flatMap_append, List.append_assoc]

theorem PlanOfLayouts.paths {layouts : Keyed Layout} {g : Groups} (h : PlanOfLayouts r layouts g) :
    g.files.map Artifact.path = layouts.flatMap fun entry => pathsBelow entry.1 entry.2 := by
  induction h with
  | nil => rfl
  | cons hf hn hr ih =>
      rw [Groups.files, List.map_append, List.map_append, paths_layoutFiles hf, hn.paths, ih, List.flatMap_cons]
      rfl

end Files

/-- **The files of an expansion have the paths that the keys give**, whatever the renderer writes into them. -/
theorem paths_ofSpec {r : Renderer} {spec : Spec} {groups : Groups} (h : ofSpec r spec = .ok groups) :
    groups.files.map Artifact.path = paths spec := (planOfLayouts h).paths

theorem layoutFiles_builtin (key : String) (layout : Layout) :
    ∃ files, layoutFiles .builtin key layout = .ok files := by
  unfold layoutFiles Renderer.layout
  cases layout.sidebar with
  | false => exact ⟨_, rfl⟩
  | true => exact ⟨_, rfl⟩

theorem ofViews_builtin (layout : String) (views : Views) : ∃ groups, ofViews .builtin layout views = .ok groups := by
  induction views with
  | nil => exact ⟨_, rfl⟩
  | leaf key info rest ih =>
      obtain ⟨more, hm⟩ := ih
      exact ⟨_, bind_eq_ok.mpr ⟨_, rfl, bind_eq_ok.mpr ⟨more, hm, rfl⟩⟩⟩
  | container key info children rest ihc ih =>
      obtain ⟨nested, hn⟩ := ihc
      obtain ⟨more, hm⟩ := ih
      exact ⟨_, bind_eq_ok.mpr ⟨_, rfl, bind_eq_ok.mpr ⟨nested, hn, bind_eq_ok.mpr ⟨more, hm, rfl⟩⟩⟩⟩

/-- **With the built-in texts the expansion succeeds.** -/
theorem ofSpec_builtin (spec : Spec) : ∃ groups, ofSpec .builtin spec = .ok groups := by
  unfold ofSpec
  induction spec.layouts with
  | nil => exact ⟨_, rfl⟩
  | cons entry rest ih =>
      obtain ⟨key, layout⟩ := entry
      obtain ⟨files, hf⟩ := layoutFiles_builtin key layout
      obtain ⟨nested, hn⟩ := ofViews_builtin key layout.views
      obtain ⟨more, hm⟩ := ih
      rw [ofLayouts_cons]
      exact ⟨_, bind_eq_ok.mpr ⟨files, hf, bind_eq_ok.mpr ⟨nested, hn, bind_eq_ok.mpr ⟨more, hm, rfl⟩⟩⟩⟩

/-! ## 2. Segments -/

/-- An identifier fragment can stand in a path. -/
theorem isName_fragment {name : String} (h : Name.Fragment name) : Path.IsName name := by
  constructor
  · obtain ⟨c, rest, hc, -⟩ := h
    rw [hc]
    exact List.cons_ne_nil c rest
  · intro hm
    have := (Name.isIdentifierRest_iff '/').mpr (h.follow '/' hm)
    revert this
    decide

theorem isName_src : Path.IsName sourceDirectory := ⟨by decide, by decide⟩

theorem isName_index : Path.IsName "index.jsx" := ⟨by decide, by decide⟩

theorem isName_component {name : String} (h : Name.Fragment name) : Path.IsName (name ++ ".jsx") :=
  (isName_fragment h).append (by decide)

theorem isName_stylesheet {name : String} (h : Name.Fragment name) : Path.IsName (name ++ ".module.css") :=
  (isName_fragment h).append (by decide)

theorem layoutDirectory_segments {key : String} (h : Name.Fragment key) :
    Path.IsBase (layoutDirectory key) ∧
      Path.segments (layoutDirectory key) = ["src", "Layouts", Name.layout key] := by
  have hlayouts : Path.IsName "Layouts" := ⟨by decide, by decide⟩
  have hname := isName_fragment h.layout
  have hbase := Path.isBase_join isName_src.isBase hlayouts
  refine ⟨Path.isBase_join hbase hname, ?_⟩
  rw [layoutDirectory, Path.segments_join hbase hname, Path.segments_join isName_src.isBase hlayouts,
    Path.segments_name isName_src]
  rfl

theorem viewDirectory_segments {layout key : String} (hl : Name.Fragment layout) (hk : Name.Fragment key) :
    Path.IsBase (viewDirectory layout key) ∧
      Path.segments (viewDirectory layout key) = ["src", "Views", Name.capitalize layout, Name.view key] := by
  have hviews : Path.IsName "Views" := ⟨by decide, by decide⟩
  have hlayout := isName_fragment hl.capitalize
  have hname := isName_fragment hk.view
  have hbase := Path.isBase_join isName_src.isBase hviews
  have hbase' := Path.isBase_join hbase hlayout
  refine ⟨Path.isBase_join hbase' hname, ?_⟩
  rw [viewDirectory, Path.segments_join hbase' hname, Path.segments_join hbase hlayout,
    Path.segments_join isName_src.isBase hviews, Path.segments_name isName_src]
  rfl

/-- The path of a view's index, spelled out. -/
theorem index_eq {layout key : String} (hl : Name.Fragment layout) (hk : Name.Fragment key) :
    Path.join (viewDirectory layout key) "index.jsx" =
      sourceDirectory ++ "/" ++ "Views" ++ "/" ++ Name.capitalize layout ++ "/" ++ Name.view key ++ "/" ++
        "index.jsx" := by
  have hviews : Path.IsName "Views" := ⟨by decide, by decide⟩
  have hlayout := isName_fragment hl.capitalize
  have hbase := Path.isBase_join isName_src.isBase hviews
  rw [Path.join_name (viewDirectory_segments hl hk).1 isName_index, viewDirectory,
    Path.join_name (Path.isBase_join hbase hlayout) (isName_fragment hk.view), Path.join_name hbase hlayout,
    Path.join_name isName_src.isBase hviews]

/-- **The segments of a layout's paths.** -/
theorem segments_layoutPaths {key : String} (h : Name.Fragment key) :
    (layoutPaths key).map Path.segments =
      [["src", "Layouts", Name.layout key, Name.layout key ++ ".jsx"],
        ["src", "Layouts", Name.layout key, Name.layout key ++ ".module.css"]] := by
  obtain ⟨hbase, hdir⟩ := layoutDirectory_segments h
  rw [layoutPaths, component, stylesheet, List.map_cons, List.map_cons, List.map_nil,
    Path.segments_join hbase (isName_component h.layout), Path.segments_join hbase (isName_stylesheet h.layout), hdir]
  rfl

/-- **The segments of a view's paths.** -/
theorem segments_viewPaths {layout key : String} (hl : Name.Fragment layout) (hk : Name.Fragment key) :
    (viewPaths layout key).map Path.segments =
      [["src", "Views", Name.capitalize layout, Name.view key, Name.view key ++ ".jsx"],
        ["src", "Views", Name.capitalize layout, Name.view key, "index.jsx"],
        ["src", "Views", Name.capitalize layout, Name.view key, Name.view key ++ ".module.css"]] := by
  obtain ⟨hbase, hdir⟩ := viewDirectory_segments hl hk
  rw [viewPaths, component, stylesheet, List.map_cons, List.map_cons, List.map_cons, List.map_nil,
    Path.segments_join hbase (isName_component hk.view), Path.segments_join hbase isName_index,
    Path.segments_join hbase (isName_stylesheet hk.view), hdir]
  rfl

theorem segments_of_mem_layoutPaths {key path : String} (h : Name.Fragment key) (hp : path ∈ layoutPaths key) :
    ∃ last, Path.segments path = ["src", "Layouts", Name.layout key, last] := by
  have hm := List.mem_map_of_mem (f := Path.segments) hp
  rw [segments_layoutPaths h, List.mem_cons, List.mem_singleton] at hm
  rcases hm with hm | hm
  · exact ⟨_, hm⟩
  · exact ⟨_, hm⟩

theorem segments_of_mem_viewPaths {layout key path : String} (hl : Name.Fragment layout) (hk : Name.Fragment key)
    (hp : path ∈ viewPaths layout key) :
    ∃ last, Path.segments path = ["src", "Views", Name.capitalize layout, Name.view key, last] := by
  have hm := List.mem_map_of_mem (f := Path.segments) hp
  rw [segments_viewPaths hl hk, List.mem_cons, List.mem_cons, List.mem_singleton] at hm
  rcases hm with hm | hm | hm
  · exact ⟨_, hm⟩
  · exact ⟨_, hm⟩
  · exact ⟨_, hm⟩

/-- **Where the files below a layout are**: in the directory of the layout or in that of one of its views. -/
theorem segments_of_mem_pathsBelow {key path : String} {layout : Layout} (hk : Name.Fragment key)
    (h : Spec.AcceptedLayout layout) (hp : path ∈ pathsBelow key layout) :
    (∃ last, Path.segments path = ["src", "Layouts", Name.layout key, last]) ∨
      ∃ view ∈ layout.views.keys, ∃ last,
        Path.segments path = ["src", "Views", Name.capitalize key, Name.view view, last] := by
  rcases List.mem_append.mp hp with hp | hp
  · exact .inl (segments_of_mem_layoutPaths hk hp)
  · obtain ⟨view, hv, hp⟩ := List.mem_flatMap.mp hp
    exact .inr ⟨view, hv, segments_of_mem_viewPaths hk (h.viewKeys view hv) hp⟩

/-! ## 3. Paths that differ -/

theorem append_ne {name a b : String} (h : a ≠ b) : name ++ a ≠ name ++ b := by
  intro he
  rw [← String.toList_inj, String.toList_append, String.toList_append, List.append_cancel_left_eq,
    String.toList_inj] at he
  exact h he

theorem nodup_layoutPaths {key : String} (h : Name.Fragment key) : (layoutPaths key).Nodup := by
  refine List.Nodup.of_map Path.segments ?_
  rw [segments_layoutPaths h]
  have hne : Name.layout key ++ ".jsx" ≠ Name.layout key ++ ".module.css" := append_ne (by decide)
  simp [hne]

/-- No file that is named for a view is its index: the letter that the name's ending begins with is not in the name of
    the index. -/
theorem view_append_ne_index (key back : String) : Name.view key ++ back ≠ "index.jsx" := by
  intro he
  have hmem : 'V' ∈ ("index.jsx").toList := by
    rw [← he, Name.view, String.toList_append, String.toList_append]
    exact List.mem_append_left _ (List.mem_append_right _ (by decide))
  revert hmem
  decide

theorem nodup_viewPaths {layout key : String} (hl : Name.Fragment layout) (hk : Name.Fragment key) :
    (viewPaths layout key).Nodup := by
  refine List.Nodup.of_map Path.segments ?_
  rw [segments_viewPaths hl hk]
  have hne : Name.view key ++ ".jsx" ≠ Name.view key ++ ".module.css" := append_ne (by decide)
  have hindex := view_append_ne_index key
  simp [hne, hindex, Ne.symm (hindex _)]

theorem nodup_pathsBelow {key : String} {layout : Layout} (hk : Name.Fragment key)
    (h : Spec.AcceptedLayout layout) : (pathsBelow key layout).Nodup := by
  refine List.nodup_append.mpr ⟨nodup_layoutPaths hk, ?_, ?_⟩
  · refine List.pairwise_flatMap.mpr ⟨fun view hv => nodup_viewPaths hk (h.viewKeys view hv), ?_⟩
    have hnames := List.pairwise_map.mp h.viewNames
    refine List.Pairwise.imp_of_mem ?_ hnames
    rintro v w hv hw hne p hp _ hq rfl
    obtain ⟨last, hs⟩ := segments_of_mem_viewPaths hk (h.viewKeys v hv) hp
    obtain ⟨last', hs'⟩ := segments_of_mem_viewPaths hk (h.viewKeys w hw) hq
    rw [hs] at hs'
    simp only [List.cons.injEq] at hs'
    exact hne hs'.2.2.2.1
  · rintro p hp _ hq rfl
    obtain ⟨last, hs⟩ := segments_of_mem_layoutPaths hk hp
    obtain ⟨view, hv, hq⟩ := List.mem_flatMap.mp hq
    obtain ⟨last', hs'⟩ := segments_of_mem_viewPaths hk (h.viewKeys view hv) hq
    rw [hs] at hs'
    simp at hs'

/-- **The paths of an expansion differ.** -/
theorem nodup_paths {spec : Spec} (h : spec.Accepted) : (paths spec).Nodup := by
  refine List.pairwise_flatMap.mpr ⟨fun entry he => ?_, ?_⟩
  · exact nodup_pathsBelow (h.keys _ (List.mem_map_of_mem he)) (h.layouts entry he)
  · have hnames := List.pairwise_map.mp (List.pairwise_map.mp h.names)
    refine List.Pairwise.imp_of_mem ?_ hnames
    rintro ⟨k, a⟩ ⟨l, b⟩ ha hb hne p hp _ hq rfl
    have hs := segments_of_mem_pathsBelow (h.keys _ (List.mem_map_of_mem ha)) (h.layouts _ ha) hp
    have hs' := segments_of_mem_pathsBelow (h.keys _ (List.mem_map_of_mem hb)) (h.layouts _ hb) hq
    rcases hs with ⟨last, hs⟩ | ⟨view, -, last, hs⟩
    · rcases hs' with ⟨last', hs'⟩ | ⟨view', -, last', hs'⟩
      · rw [hs] at hs'
        simp only [List.cons.injEq] at hs'
        exact hne hs'.2.2.1
      · rw [hs] at hs'
        simp at hs'
    · rcases hs' with ⟨last', hs'⟩ | ⟨view', -, last', hs'⟩
      · rw [hs] at hs'
        simp at hs'
      · rw [hs] at hs'
        simp only [List.cons.injEq] at hs'
        exact hne (Name.layout_inj.mpr hs'.2.2.1)

end RouteScaffold.Expansion
