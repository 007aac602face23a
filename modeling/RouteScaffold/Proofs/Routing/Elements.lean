import RouteScaffold.Proofs.Routing.Table
import RouteScaffold.Routing.RouteTable

/-!
# Imports and routing entries in step

The imports of views come from a table filled along the tour, the routing entries from a recursion of their own
that looks each view up by layout and key. For an accepted specification the two agree position by position
(`elements_in_step`): keys differ, so that each lookup finds the import that the tour put there.
-/

namespace RouteScaffold

/-! ## 1. Routing entries -/

/-- The routing entries of views are their keys in order, each with the component that is looked up for it. -/
theorem Views.elements_pairs (bindings : Bindings) (layout : String) (views : Views) (parent : String) :
    (views.elements bindings layout parent).map (fun e => (e.key, e.element)) =
      views.keys.map fun key => (key, viewElement bindings layout key) := by
  induction views generalizing parent with
  | nil => rfl
  | leaf key info rest ih =>
      rw [elements, List.map_cons, ih]
      rfl
  | container key info children rest ihc ih =>
      rw [elements, List.map_cons, List.map_append, ihc, ih, keys_container, List.map_cons, List.map_append]

namespace Bindings

/-! ## 2. Lookups in the table -/

/-- What the table has at the place of a layout. -/
theorem getElem?_tableOf (layouts : Keyed Layout) (taken : List String) (i : Nat) (key : String)
    (layout : Layout) (h : layouts[i]? = some (key, layout)) :
    ∃ before, (tableOf taken layouts)[i]? =
      some (key, ⟨layoutImport key, importsOf key before layout.views.nodes⟩) := by
  induction layouts generalizing taken i with
  | nil => cases h
  | cons entry rest ih =>
      obtain ⟨k, l⟩ := entry
      cases i with
      | zero =>
          cases h
          exact ⟨taken, rfl⟩
      | succ i => exact ih _ i h

/-- Where keys differ, the component that is looked up for an imported view is its import. -/
theorem viewElement_of_mem {table : Bindings} {layout key : String} {l : LayoutImports} {imp : Import}
    (ht : table.keys.Nodup) (hl : (layout, l) ∈ table) (hv : l.views.keys.Nodup) (hm : (key, imp) ∈ l.views) :
    table.view? layout key = some imp ∧ viewElement table layout key = imp.binding := by
  have hview : table.view? layout key = some imp := by
    unfold view?
    rw [Keyed.get?_of_mem ht hl]
    exact Keyed.get?_of_mem hv hm
  refine ⟨hview, ?_⟩
  unfold viewElement
  rw [hview]
  rfl

/-- How many views are imported. -/
def viewCount (table : Bindings) : Nat := table.foldr (fun (_, l) n => l.views.length + n) 0

/-- The table has as many imports of views as there are views. -/
theorem viewCount_tableOf (layouts : Keyed Layout) (taken : List String) :
    viewCount (tableOf taken layouts) = Spec.viewCount ⟨layouts⟩ := by
  induction layouts generalizing taken with
  | nil => rfl
  | cons entry rest ih =>
      obtain ⟨key, layout⟩ := entry
      have hlen : (importsOf key taken layout.views.nodes).length = layout.views.count := by
        have := congrArg List.length (keys_importsOf key layout.views.nodes taken)
        rw [Keyed.keys, List.length_map, List.length_map, Views.length_nodes] at this
        exact this
      have := ih (namesBack (importsOf key taken layout.views.nodes) ++ taken)
      simp only [viewCount, Spec.viewCount] at this ⊢
      simp only [tableOf, List.foldr_cons, this, hlen]

/-! ## 3. In step -/

/-- The imports of a layout and its routing entry are in step: views in the order of the tour, each under its
    key with the name of its import, and every lookup finding an import. -/
structure InStep (table : Bindings) (key : String) (layout : Layout) (imports : LayoutImports)
    (entry : LayoutElement) : Prop where
  /-- The entry and the import are those of the layout, and the lookup of the layout finds the import. -/
  entryKey : entry.key = key
  ownImport : imports.layout = layoutImport key
  layoutFound : table.layout? key = some imports.layout
  layoutElement : entry.element = imports.layout.binding
  /-- Position by position the views have the same keys and names, and the keys are those of the tour. -/
  views : imports.views.map (fun v => (v.1, v.2.binding)) = entry.views.map fun e => (e.key, e.element)
  tour : imports.views.keys = ((layout.visited key).filterMap TourEvent.entered?).map Prod.fst
  viewsFound : ∀ e ∈ entry.views, ∃ imp, table.view? key e.key = some imp ∧ e.element = imp.binding

theorem inStep_of_mem {table : Bindings} {key : String} {layout : Layout} {before : List String}
    (ht : table.keys.Nodup) (hn : layout.views.keys.Nodup)
    (hl : (key, ⟨layoutImport key, importsOf key before layout.views.nodes⟩) ∈ table) :
    InStep table key layout ⟨layoutImport key, importsOf key before layout.views.nodes⟩
      (layout.element table key) := by
  have hkeys := keys_importsOf key layout.views.nodes before
  have hv : (importsOf key before layout.views.nodes).keys.Nodup := by
    rw [hkeys]
    exact hn
  have hlayout : table.layout? key = some (layoutImport key) := by
    unfold layout?
    rw [Keyed.get?_of_mem ht hl]
    rfl
  have hpairs := Views.elements_pairs table key layout.views layout.path
  refine ⟨rfl, rfl, hlayout, ?_, ?_, ?_, fun e he => ?_⟩
  · show ((table.layout? key).map Import.binding).getD (Name.layout key) = _
    rw [hlayout]
    rfl
  · show (importsOf key before layout.views.nodes).map _ =
      (layout.views.elements table key layout.path).map _
    rw [hpairs, Views.keys, ← hkeys, Keyed.keys, List.map_map]
    refine List.map_congr_left fun v hm => ?_
    obtain ⟨k, imp⟩ := v
    have := (viewElement_of_mem ht hl hv hm).2
    simp only [Function.comp_apply]
    rw [this]
  · rw [Layout.visited_eq, Layout.entered_tour]
    exact hkeys
  · have hmem : (e.key, e.element) ∈ layout.views.keys.map fun k => (k, viewElement table key k) := by
      rw [← hpairs]
      exact List.mem_map_of_mem (f := fun e : ViewElement => (e.key, e.element)) he
    obtain ⟨k, hk, hek⟩ := List.mem_map.mp hmem
    rw [Views.keys, ← hkeys] at hk
    obtain ⟨⟨k', imp⟩, hm, rfl⟩ := List.mem_map.mp hk
    obtain ⟨hview, helement⟩ := viewElement_of_mem ht hl hv hm
    obtain ⟨hke, hele⟩ := Prod.mk.inj hek
    rw [← hke, ← hele]
    exact ⟨imp, hview, helement⟩

/-- **Imports and routing entries are in step**, layout by layout in the order of the specification, and there is
    one import for each view. -/
theorem elements_in_step {defaults : Defaults} {document : Document} {spec : Spec}
    (h : Spec.validate defaults document = .ok spec) :
    (ofSpec spec).keys = spec.layouts.keys ∧
    (RouteTable.build spec (ofSpec spec)).elements.map LayoutElement.key = spec.layouts.keys ∧
    (∀ (i : Nat) (key : String) (layout : Layout), spec.layouts[i]? = some (key, layout) →
      ∃ imports entry, (ofSpec spec)[i]? = some (key, imports) ∧
        (RouteTable.build spec (ofSpec spec)).elements[i]? = some entry ∧
        InStep (ofSpec spec) key layout imports entry) ∧
    viewCount (ofSpec spec) = spec.viewCount := by
  have ha := Spec.accepted_of_validate h
  have hkeys : (ofSpec spec).keys = spec.layouts.keys := by
    rw [ofSpec_eq ha, keys_tableOf]
  refine ⟨hkeys, ?_, fun i key layout hi => ?_, ?_⟩
  · show (spec.layouts.map _).map LayoutElement.key = spec.layouts.map Prod.fst
    rw [List.map_map]
    rfl
  · obtain ⟨before, hb⟩ := getElem?_tableOf spec.layouts (spec.layouts.keys.map Name.layout) i key layout hi
    rw [← ofSpec_eq ha] at hb
    have ht : (ofSpec spec).keys.Nodup := by
      rw [hkeys]
      exact ha.nodup_keys
    have hn := (ha.layouts _ (List.mem_of_getElem? hi)).nodup_keys
    refine ⟨_, layout.element (ofSpec spec) key, hb, ?_, inStep_of_mem ht hn (List.mem_of_getElem? hb)⟩
    show (spec.layouts.map _)[i]? = _
    rw [List.getElem?_map, hi]
    rfl
  · rw [ofSpec_eq ha, viewCount_tableOf]

/-- Two layouts with views of one key, the first with a view below it: the second layout is in step. -/
theorem second_layout_in_step : ∃ spec layout imports entry,
    Spec.validate .standard (.map [
      ("home", .map [("routes", .map [("list", .map [("routes", .map [("detail", .map [])])])])]),
      ("admin", .map [("routes", .map [("list", .map [])])])]) = .ok spec ∧
    (ofSpec spec)[1]? = some ("admin", imports) ∧ InStep (ofSpec spec) "admin" layout imports entry ∧
    imports.views.map (fun v => (v.1, v.2.binding)) = [("list", "AdminListView")] ∧
    viewCount (ofSpec spec) = 3 := by
  have h : Spec.validate .standard (.map [
      ("home", .map [("routes", .map [("list", .map [("routes", .map [("detail", .map [])])])])]),
      ("admin", .map [("routes", .map [("list", .map [])])])]) = .ok _ := rfl
  obtain ⟨-, -, hlayouts, hcount⟩ := elements_in_step h
  obtain ⟨imports, entry, hi, -, hstep⟩ := hlayouts 1 "admin" _ rfl
  have hviews : imports.views.map (fun v => (v.1, v.2.binding)) = [("list", "AdminListView")] := by
    cases hi
    decide
  exact ⟨_, _, imports, entry, h, hi, hstep, hviews, hcount⟩

end Bindings

end RouteScaffold
