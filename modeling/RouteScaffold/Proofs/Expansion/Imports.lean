import RouteScaffold.Proofs.Expansion.Paths
import RouteScaffold.Proofs.Routing.Table
import RouteScaffold.Proofs.Specifiers
import RouteScaffold.RoutingModule.Parts

/-!
# Imports and planned files

The routing module imports layouts and views from where the expansion plans them. The import sources and the paths of
the files are put together apart from each other, the ones along the tour and the others down the tree; resolved from
the routing module, the imports lead in order to exactly those planned files that others import (`targets_tableOf`):
the components of layouts and the indices of views. No path being planned twice, each is the target of one import.
-/

namespace RouteScaffold.Expansion

/-! ## 1. Targets -/

/-- The file that the import of a layout leads to. -/
def layoutTarget (i : Import) : String := Path.resolve RoutingModule.path (i.source ++ ".jsx")

/-- The file that the import of a view leads to: the index of the directory that is imported. -/
def viewTarget (i : Import) : String := Path.resolve RoutingModule.path (i.source ++ "/index.jsx")

/-- The files that the imports of a table lead to, in order. -/
def targets (table : Bindings) : List String :=
  table.values.flatMap fun l => layoutTarget l.layout :: l.views.values.map viewTarget

/-- Is the path that of a layout's component, or that of the index of a view? -/
def isEntry (path : String) : Bool :=
  match Path.segments path with
  | ["src", "Layouts", _, file] => (".jsx").toList.isSuffixOf file.toList
  | ["src", "Views", _, _, file] => file == "index.jsx"
  | _ => false

/-! ## 2. Where imports lead -/

/-- An identifier fragment, with anything behind it, is no step of a specifier. -/
theorem not_step {name : String} (h : Name.Fragment name) (back : String) :
    name ++ back ≠ ".." ∧ name ++ back ≠ "." := by
  obtain ⟨c, rest, hc, hstart, -⟩ := h
  have hdot : ∀ step : String, step.toList.head? = some '.' → name ++ back ≠ step := by
    rintro step hs rfl
    rw [String.toList_append, hc] at hs
    cases hs
    exact absurd ((Name.isIdentifierStart_iff '.').mpr hstart) (by decide)
  exact ⟨hdot ".." (by decide), hdot "." (by decide)⟩

theorem fragment_not_step {name : String} (h : Name.Fragment name) : name ≠ ".." ∧ name ≠ "." := by
  have hstep := not_step h ""
  rwa [String.append_empty] at hstep

/-- From the routing module a specifier leads up to the generated sources and down along names. -/
theorem resolve_routingModule {specifier path : String} (names : List String)
    (hs : Path.segments specifier = ".." :: names) (hn : ∀ name ∈ names, name ≠ ".." ∧ name ≠ ".")
    (hp : Path.segments path = "src" :: names) : Path.resolve RoutingModule.path specifier = path := by
  have hup : Path.enter (Path.segments RoutingModule.path).dropLast ".." = ["src"] := by decide
  refine Path.resolve_eq_of_segments ?_
  rw [hs, hp, List.foldl_cons, hup, Path.foldl_enter_names hn, List.singleton_append]

/-- **The import of a layout leads to its component.** -/
theorem layoutTarget_layoutImport {key : String} (h : Name.Fragment key) :
    layoutTarget (Bindings.layoutImport key) = component (layoutDirectory key) (Name.layout key) := by
  have hfile := isName_component h.layout
  have hsource : (Bindings.layoutImport key).source ++ ".jsx" =
      "../Layouts" ++ "/" ++ Name.layout key ++ "/" ++ (Name.layout key ++ ".jsx") := by
    show "../Layouts/" ++ Name.layout key ++ "/" ++ Name.layout key ++ ".jsx" = _
    simp only [String.append_assoc]
    rfl
  have hfront : Path.segments "../Layouts" = ["..", "Layouts"] := by decide
  obtain ⟨hbase, hdir⟩ := layoutDirectory_segments h
  refine resolve_routingModule ["Layouts", Name.layout key, Name.layout key ++ ".jsx"] ?specifier ?steps ?path
  case specifier =>
    rw [hsource, Path.segments_slash, Path.segments_slash, hfront, Path.segments_name (isName_fragment h.layout),
      Path.segments_name hfile]
    rfl
  case steps =>
    simp only [List.forall_mem_cons]
    exact ⟨by decide, fragment_not_step h.layout, not_step h.layout ".jsx", fun name hn => by cases hn⟩
  case path =>
    rw [component, Path.segments_join hbase hfile, hdir]
    rfl

/-- **The import of a view leads to its index.** -/
theorem viewTarget_viewSource {layout key : String} (hl : Name.Fragment layout) (hk : Name.Fragment key)
    (binding : String) : viewTarget ⟨binding, Bindings.viewSource layout key⟩ =
      Path.join (viewDirectory layout key) "index.jsx" := by
  have hsource : Bindings.viewSource layout key ++ "/index.jsx" =
      "../Views" ++ "/" ++ Name.capitalize layout ++ "/" ++ Name.view key ++ "/" ++ "index.jsx" := by
    show "../Views/" ++ Name.capitalize layout ++ "/" ++ Name.view key ++ "/index.jsx" = _
    simp only [String.append_assoc]
    rfl
  have hfront : Path.segments "../Views" = ["..", "Views"] := by decide
  obtain ⟨hbase, hdir⟩ := viewDirectory_segments hl hk
  refine resolve_routingModule ["Views", Name.capitalize layout, Name.view key, "index.jsx"] ?specifier ?steps
    ?path
  case specifier =>
    rw [hsource, Path.segments_slash, Path.segments_slash, Path.segments_slash, hfront,
      Path.segments_name (isName_fragment hl.capitalize), Path.segments_name (isName_fragment hk.view),
      Path.segments_name isName_index]
    rfl
  case steps =>
    simp only [List.forall_mem_cons]
    exact ⟨by decide, fragment_not_step hl.capitalize, fragment_not_step hk.view, by decide,
      fun name hn => by cases hn⟩
  case path =>
    rw [Path.segments_join hbase isName_index, hdir]
    rfl

/-- **What the index of a view hands on is in its directory**: the component of the view. -/
theorem resolve_index {layout key : String} (hl : Name.Fragment layout) (hk : Name.Fragment key) :
    Path.resolve (Path.join (viewDirectory layout key) "index.jsx") ("./" ++ Name.view key ++ ".jsx") =
      component (viewDirectory layout key) (Name.view key) := by
  have hfile := isName_component hk.view
  have hsource : "./" ++ Name.view key ++ ".jsx" = "." ++ "/" ++ (Name.view key ++ ".jsx") := by
    simp only [String.append_assoc]
    rfl
  have hfront : Path.segments "." = ["."] := by decide
  obtain ⟨hbase, hdir⟩ := viewDirectory_segments hl hk
  have hstay : ∀ directory, Path.enter directory "." = directory := fun _ => rfl
  refine Path.resolve_eq_of_segments ?_
  rw [hsource, Path.segments_slash, hfront, Path.segments_name hfile, Path.segments_join hbase isName_index,
    List.dropLast_concat, List.singleton_append, List.foldl_cons, hstay, List.foldl_cons,
    Path.enter_name (not_step hk.view ".jsx"), component, Path.segments_join hbase hfile]
  rfl

/-! ## 3. Imports in the order of the plan -/

/-- Of the files of a layout its component is imported. -/
theorem filter_layoutPaths {key : String} (h : Name.Fragment key) :
    (layoutPaths key).filter isEntry = [component (layoutDirectory key) (Name.layout key)] := by
  have hsegments := segments_layoutPaths h
  simp only [layoutPaths, List.map_cons, List.map_nil, List.cons.injEq, and_true] at hsegments
  obtain ⟨hcomponent, hstyle⟩ := hsegments
  have hyes : isEntry (component (layoutDirectory key) (Name.layout key)) = true := by
    rw [isEntry, hcomponent]
    simp
  -- Read from the end the two names differ in their first letter.
  have hno : ¬isEntry (stylesheet (layoutDirectory key) (Name.layout key)) = true := by
    rw [isEntry, hstyle]
    show ¬List.isPrefixOf _ (Name.layout key ++ ".module.css").toList.reverse = true
    rw [String.toList_append, List.reverse_append]
    exact Bool.false_ne_true
  rw [layoutPaths, List.filter_cons_of_pos hyes, List.filter_cons_of_neg hno, List.filter_nil]

/-- Of the files of a view its index is imported. -/
theorem filter_viewPaths {layout key : String} (hl : Name.Fragment layout) (hk : Name.Fragment key) :
    (viewPaths layout key).filter isEntry = [Path.join (viewDirectory layout key) "index.jsx"] := by
  have hsegments := segments_viewPaths hl hk
  simp only [viewPaths, List.map_cons, List.map_nil, List.cons.injEq, and_true] at hsegments
  obtain ⟨hcomponent, hindex, hstyle⟩ := hsegments
  have hname := view_append_ne_index key
  simp [viewPaths, isEntry, hcomponent, hindex, hstyle, hname]

theorem filter_viewsPaths {layout : String} (hl : Name.Fragment layout) {keys : List String}
    (hk : ∀ key ∈ keys, Name.Fragment key) : (keys.flatMap (viewPaths layout)).filter isEntry =
      keys.map fun key => Path.join (viewDirectory layout key) "index.jsx" := by
  induction keys with
  | nil => rfl
  | cons key rest ih =>
      rw [List.forall_mem_cons] at hk
      rw [List.flatMap_cons, List.filter_append, filter_viewPaths hl hk.1, ih hk.2]
      rfl

/-- The imports of the views of a layout lead to their indices in order. -/
theorem viewTargets_importsOf {layout : String} (hl : Name.Fragment layout) {nodes : List (String × ViewInfo)}
    (hk : ∀ node ∈ nodes, Name.Fragment node.1) (taken : List String) :
    (Bindings.importsOf layout taken nodes).values.map viewTarget =
      (nodes.map Prod.fst).map fun key => Path.join (viewDirectory layout key) "index.jsx" := by
  induction nodes generalizing taken with
  | nil => rfl
  | cons node rest ih =>
      obtain ⟨key, info⟩ := node
      rw [List.forall_mem_cons] at hk
      have hrest := ih hk.2 (Bindings.freeName taken layout (Name.view key) :: taken)
      rw [Keyed.values] at hrest ⊢
      rw [Bindings.importsOf, List.map_cons, List.map_cons, viewTarget_viewSource hl hk.1, hrest]
      rfl

/-- **The imports lead, in order, to the planned files that others import.** -/
theorem targets_tableOf {layouts : Keyed Layout} (hk : ∀ key ∈ layouts.keys, Name.Fragment key)
    (hl : ∀ entry ∈ layouts, Spec.AcceptedLayout entry.2) (taken : List String) :
    targets (Bindings.tableOf taken layouts) =
      (layouts.flatMap fun entry => pathsBelow entry.1 entry.2).filter isEntry := by
  induction layouts generalizing taken with
  | nil => rfl
  | cons entry rest ih =>
      obtain ⟨key, layout⟩ := entry
      rw [Keyed.keys, List.map_cons, List.forall_mem_cons] at hk
      rw [List.forall_mem_cons] at hl
      have hrest := ih hk.2 hl.2 (Bindings.namesBack (Bindings.importsOf key taken layout.views.nodes) ++ taken)
      have hnodes : ∀ node ∈ layout.views.nodes, Name.Fragment node.1 := fun node hn =>
        hl.1.viewKeys _ (List.mem_map_of_mem hn)
      have hviews := viewTargets_importsOf hk.1 hnodes taken
      rw [targets, Keyed.values] at hrest ⊢
      rw [Bindings.tableOf, List.map_cons, List.flatMap_cons, List.flatMap_cons, List.filter_append, pathsBelow,
        List.filter_append, filter_layoutPaths hk.1, filter_viewsPaths hk.1 hl.1.viewKeys, hrest, hviews,
        layoutTarget_layoutImport hk.1]
      rfl

/-! ## 4. The indices of views -/

section Index

variable {r : Renderer}

/-- The index of a view holds what the renderer writes for its key. -/
theorem index_viewFiles {layout key : String} {info : ViewInfo} {files : List Artifact}
    (h : viewFiles r layout key info = .ok files) : ∃ text, r.viewIndex key = .ok text ∧
      ⟨Path.join (viewDirectory layout key) "index.jsx", .rendered text⟩ ∈ files := by
  obtain ⟨text, -, h⟩ := bind_eq_ok.mp h
  obtain ⟨index, hindex, h⟩ := bind_eq_ok.mp h
  cases h
  exact ⟨index, hindex, List.mem_cons_of_mem _ List.mem_cons_self⟩

theorem PlanOfViews.index {layout : String} {views : Views} {g : Groups} (h : PlanOfViews r layout views g) :
    ∀ key ∈ views.keys, ∃ text, r.viewIndex key = .ok text ∧
      ⟨Path.join (viewDirectory layout key) "index.jsx", .rendered text⟩ ∈ g.files := by
  induction h with
  | nil => exact fun key hk => by cases hk
  | leaf hf hr ih =>
      intro key hk
      rcases List.mem_cons.mp hk with rfl | hk
      · obtain ⟨text, htext, hmem⟩ := index_viewFiles hf
        exact ⟨text, htext, List.mem_append_left _ (List.mem_append_left _ hmem)⟩
      · obtain ⟨text, htext, hmem⟩ := ih key hk
        exact ⟨text, htext, List.mem_append_right _ hmem⟩
  | container hf hn hr ihn ih =>
      rw [Views.keys_container]
      intro key hk
      rcases List.mem_cons.mp hk with rfl | hk
      · obtain ⟨text, htext, hmem⟩ := index_viewFiles hf
        exact ⟨text, htext, List.mem_append_left _ (List.mem_append_left _ hmem)⟩
      rcases List.mem_append.mp hk with hk | hk
      · obtain ⟨text, htext, hmem⟩ := ihn key hk
        exact ⟨text, htext, List.mem_append_left _ (List.mem_append_right _ hmem)⟩
      · obtain ⟨text, htext, hmem⟩ := ih key hk
        exact ⟨text, htext, List.mem_append_right _ hmem⟩

theorem PlanOfLayouts.index {layouts : Keyed Layout} {g : Groups} (h : PlanOfLayouts r layouts g) :
    ∀ entry ∈ layouts, ∀ key ∈ entry.2.views.keys, ∃ text, r.viewIndex key = .ok text ∧
      ⟨Path.join (viewDirectory entry.1 key) "index.jsx", .rendered text⟩ ∈ g.files := by
  induction h with
  | nil => exact fun entry he => by cases he
  | cons hf hn hr ih =>
      intro entry he key hk
      rcases List.mem_cons.mp he with rfl | he
      · obtain ⟨text, htext, hmem⟩ := hn.index key hk
        exact ⟨text, htext, List.mem_append_left _ (List.mem_append_right _ hmem)⟩
      · obtain ⟨text, htext, hmem⟩ := ih entry he key hk
        exact ⟨text, htext, List.mem_append_right _ hmem⟩

end Index

/-! ## 5. Imports and plan -/

/-- The imports of a table and the files of an expansion correspond. -/
structure Corresponds (r : Renderer) (table : Bindings) (files : List Artifact) : Prop where
  /-- The imports lead in order to the planned files that others import, -/
  inOrder : targets table = (files.map Artifact.path).filter isEntry
  /-- each to one file, -/
  oneFile : ∀ target ∈ targets table, (files.map Artifact.path).count target = 1
  /-- and each such file is where one import leads. -/
  oneImport : ∀ path ∈ files.map Artifact.path, isEntry path = true → (targets table).count path = 1
  /-- The index of a view holds what the renderer writes for it, -/
  index : ∀ entry ∈ table, ∀ view ∈ entry.2.views, ∃ text, r.viewIndex view.1 = .ok text ∧
    ⟨viewTarget view.2, .rendered text⟩ ∈ files
  /-- and the component of the view is planned beside it. -/
  component : ∀ entry ∈ table, ∀ view ∈ entry.2.views,
    (files.map Artifact.path).count (Path.resolve (viewTarget view.2) ("./" ++ Name.view view.1 ++ ".jsx")) = 1

/-- Each view that the table imports is a view of a layout, and its import leads to its index. -/
theorem view_of_table {spec : Spec} (h : spec.Accepted) {entry : String × LayoutImports}
    (he : entry ∈ Bindings.ofSpec spec) {view : String × Import} (hv : view ∈ entry.2.views) :
    ∃ layout, (entry.1, layout) ∈ spec.layouts ∧ view.1 ∈ layout.views.keys ∧
      viewTarget view.2 = Path.join (viewDirectory entry.1 view.1) "index.jsx" := by
  obtain ⟨key, imports⟩ := entry
  rw [Bindings.ofSpec_eq h] at he
  obtain ⟨layout, before, hl, rfl⟩ := Bindings.mem_tableOf he
  have hkey : view.1 ∈ layout.views.keys := by
    have hm := List.mem_map_of_mem (f := Prod.fst) hv
    rwa [← Keyed.keys, Bindings.keys_importsOf] at hm
  obtain ⟨k, binding, source⟩ := view
  have hsource : source = Bindings.viewSource key k := Bindings.source_of_mem hv
  subst hsource
  exact ⟨layout, hl, hkey, viewTarget_viewSource (h.keys key (List.mem_map_of_mem (f := Prod.fst) hl))
    ((h.layouts _ hl).viewKeys k hkey) binding⟩

theorem corresponds_of_accepted {spec : Spec} (h : spec.Accepted) {r : Renderer} {groups : Groups}
    (hg : ofSpec r spec = .ok groups) : Corresponds r (Bindings.ofSpec spec) groups.files := by
  have hpaths := paths_ofSpec hg
  have htargets : targets (Bindings.ofSpec spec) = (groups.files.map Artifact.path).filter isEntry := by
    rw [Bindings.ofSpec_eq h, hpaths]
    exact targets_tableOf h.keys h.layouts _
  have hnodup : (groups.files.map Artifact.path).Nodup := by
    rw [hpaths]
    exact nodup_paths h
  refine ⟨htargets, fun target ht => ?oneFile, fun path hp hentry => ?oneImport, fun entry he view hv => ?index,
    fun entry he view hv => ?component⟩
  case oneFile =>
    rw [htargets] at ht
    exact List.count_eq_one_of_mem hnodup (List.mem_filter.mp ht).1
  case oneImport =>
    rw [htargets]
    exact List.count_eq_one_of_mem (hnodup.filter _) (List.mem_filter.mpr ⟨hp, hentry⟩)
  case index =>
    obtain ⟨layout, hl, hk, htarget⟩ := view_of_table h he hv
    rw [htarget]
    exact (planOfLayouts hg).index _ hl _ hk
  case component =>
    obtain ⟨layout, hl, hk, htarget⟩ := view_of_table h he hv
    have hlayout := h.keys entry.1 (List.mem_map_of_mem (f := Prod.fst) hl)
    rw [htarget, resolve_index hlayout ((h.layouts _ hl).viewKeys _ hk)]
    refine List.count_eq_one_of_mem hnodup ?_
    rw [hpaths]
    refine List.mem_flatMap.mpr ⟨_, hl, List.mem_append_right _ (List.mem_flatMap.mpr ⟨view.1, hk, ?_⟩)⟩
    exact List.mem_cons_self

/-- **The imports of the routing module and the planned files correspond**, whatever the renderer; with the built-in
    texts the expansion succeeds, and the index of a view hands on the component beside it. -/
theorem imports_correspond {defaults : Defaults} {document : Document} {spec : Spec}
    (h : Spec.validate defaults document = .ok spec) :
    (∃ groups, ofSpec .builtin spec = .ok groups) ∧
    (∀ key, Renderer.builtin.viewIndex key =
      .ok ("export \x7b default \x7d from \"./" ++ Name.view key ++ "\";\n")) ∧
    ∀ (r : Renderer) (groups : Groups), ofSpec r spec = .ok groups →
      Corresponds r (Bindings.ofSpec spec) groups.files := by
  refine ⟨ofSpec_builtin spec, fun key => ?_, fun r groups hg =>
    corresponds_of_accepted (Spec.accepted_of_validate h) hg⟩
  show Except.ok (Component.viewIndex key) = _
  have hend : "\";" ++ "\n" = "\";\n" := rfl
  have hnil : String.join [] = "" := rfl
  rw [Component.viewIndex, Text.unlines, List.map_cons, List.map_nil, String.join_cons, hnil, String.append_empty,
    String.append_assoc, hend]

/-- Two layouts with a view of one key and a nested view: each import leads to a file of its own. -/
theorem same_key_corresponds : ∃ spec groups,
    Spec.validate .standard (.map [
      ("home", .map [("routes", .map [("list", .map [("routes", .map [("detail", .map [])])])])]),
      ("admin", .map [("routes", .map [("list", .map [])])])]) = .ok spec ∧
    ofSpec .builtin spec = .ok groups ∧ Corresponds .builtin (Bindings.ofSpec spec) groups.files ∧
    targets (Bindings.ofSpec spec) =
      ["src/Layouts/HomeLayout/HomeLayout.jsx", "src/Views/Home/ListView/index.jsx",
       "src/Views/Home/DetailView/index.jsx", "src/Layouts/AdminLayout/AdminLayout.jsx",
       "src/Views/Admin/ListView/index.jsx"] := by
  have h : Spec.validate .standard (.map [
      ("home", .map [("routes", .map [("list", .map [("routes", .map [("detail", .map [])])])])]),
      ("admin", .map [("routes", .map [("list", .map [])])])]) = .ok _ := rfl
  obtain ⟨⟨groups, hg⟩, -, hall⟩ := imports_correspond h
  exact ⟨_, groups, h, hg, hall .builtin groups hg, by decide⟩

end RouteScaffold.Expansion
