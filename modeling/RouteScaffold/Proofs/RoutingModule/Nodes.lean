import RouteScaffold.Proofs.RoutingModule.RoutesObject

/-!
# The nodes of the routes

The nodes of an object of routes, at all depths, with the keys that lead to them (`Node`). Those of the object that
stands for a specification are its layouts (`node_layout`) and the views below each of them (`node_view`), and no others
(`node_cases`).
-/

namespace RouteScaffold.RoutingModule

open Script

/-! ## 1. Nodes -/

/-- An object that stands at the end of keys: among the routes themselves, or among those of a node. -/
inductive Node (routes : Members) : List String → Members → Prop
  | layout {key : String} {own : Members} (h : (key, Value.plain own) ∈ routes) : Node routes [key] own
  | view {trail : List String} {own views : Members} {key : String} {inner : Members} (h : Node routes trail own)
      (hr : Keyed.get? own "routes" = some (.plain views)) (hm : (key, Value.plain inner) ∈ views) :
      Node routes (trail ++ [key]) inner

/-- The members of a node, with its icon and the nodes below it where it has them. -/
def membersOf (path element title : String) (icon : Option String) (below : Option Members) : Members :=
  nodeMembers path element title ++ (icon.map fun name => ("icon", Value.component name)).toList ++
    (below.map fun views => ("routes", Value.plain views)).toList

/-- The members of one view. -/
def viewNodeMembers (bindings : Bindings) (layout key : String) (view : ViewNode) : Members :=
  membersOf view.path (elementOf bindings layout key) view.title (some view.icon)
    (view.children.map (viewMembers bindings layout))

theorem layoutMembers_eq (bindings : Bindings) (key : String) (layout : Layout) :
    layoutMembers bindings key layout = membersOf layout.path (layoutElementOf bindings key) layout.title layout.icon
      (layout.children.map (viewMembers bindings key)) := by
  rw [membersOf, Option.map_map]
  rfl

section Members

variable (path element title : String) (icon : Option String) (below : Option Members)

theorem get?_element : Keyed.get? (membersOf path element title icon below) "element" = some (.component element) := by
  simp [membersOf, nodeMembers, Keyed.get?_cons]

theorem get?_icon : Keyed.get? (membersOf path element title icon below) "icon" = icon.map .component := by
  cases icon with
  | some name => simp [membersOf, nodeMembers, Keyed.get?_cons]
  | none =>
      cases below with
      | none => simp [membersOf, nodeMembers, Keyed.get?]
      | some views => simp [membersOf, nodeMembers, Keyed.get?]

theorem get?_routes : Keyed.get? (membersOf path element title icon below) "routes" = below.map .plain := by
  cases below with
  | none =>
      cases icon with
      | none => simp [membersOf, nodeMembers, Keyed.get?]
      | some name => simp [membersOf, nodeMembers, Keyed.get?]
  | some views =>
      cases icon with
      | none => simp [membersOf, nodeMembers, Keyed.get?_cons]
      | some name => simp [membersOf, nodeMembers, Keyed.get?_cons]

end Members

/-! ## 2. Views side by side -/

/-- A view stands among views, and so do the views below it. -/
structure Among (views : Views) (key : String) (view : ViewNode) : Prop where
  node : (key, view.toViewInfo) ∈ views.nodes
  below : ∀ children, view.children = some children → ∀ node ∈ children.nodes, node ∈ views.nodes

theorem Among.mono {views more : Views} {key : String} {view : ViewNode} (h : Among views key view)
    (hm : ∀ node ∈ views.nodes, node ∈ more.nodes) : Among more key view :=
  ⟨hm _ h.node, fun children hc node hn => hm node (h.below children hc node hn)⟩

variable {bindings : Bindings}

/-- The members that stand for views are those of views among them. -/
theorem mem_viewMembers {layout : String} {views : Views} {key : String} {own : Members}
    (h : (key, Value.plain own) ∈ viewMembers bindings layout views) :
    ∃ view, own = viewNodeMembers bindings layout key view ∧ Among views key view := by
  induction views with
  | nil => cases h
  | leaf k info rest ih =>
      rcases List.mem_cons.mp h with he | h
      · cases he
        exact ⟨⟨info, none⟩, rfl, List.mem_cons_self, fun children hc => by cases hc⟩
      · obtain ⟨view, hown, hamong⟩ := ih h
        exact ⟨view, hown, hamong.mono fun node hn => List.mem_cons_of_mem _ hn⟩
  | container k info children rest _ ih =>
      rcases List.mem_cons.mp h with he | h
      · cases he
        refine ⟨⟨info, some children⟩, rfl, List.mem_cons_self, fun below hb node hn => ?_⟩
        cases hb
        exact List.mem_cons_of_mem _ (List.mem_append_left _ hn)
      · obtain ⟨view, hown, hamong⟩ := ih h
        exact ⟨view, hown, hamong.mono fun node hn => List.mem_cons_of_mem _ (List.mem_append_right _ hn)⟩

/-- **Every view is a node**, if the views side by side are. -/
theorem node_among {routes : Members} {layout : String} {views : Views} {trail : List String}
    (h : ∀ key own, (key, Value.plain own) ∈ viewMembers bindings layout views → Node routes (trail ++ [key]) own)
    {key : String} {info : ViewInfo} (hn : (key, info) ∈ views.nodes) :
    ∃ more view, view.toViewInfo = info ∧
      Node routes (trail ++ (more ++ [key])) (viewNodeMembers bindings layout key view) := by
  induction views generalizing trail with
  | nil => cases hn
  | leaf k i rest ih =>
      rcases List.mem_cons.mp hn with he | hn
      · cases he
        exact ⟨[], ⟨info, none⟩, rfl, h key _ List.mem_cons_self⟩
      · exact ih (fun key own hm => h key own (List.mem_cons_of_mem _ hm)) hn
  | container k i children rest ihc ih =>
      have hcontainer : Node routes (trail ++ [k]) (viewNodeMembers bindings layout k ⟨i, some children⟩) :=
        h k _ List.mem_cons_self
      rcases List.mem_cons.mp hn with he | hn
      · cases he
        exact ⟨[], ⟨info, some children⟩, rfl, hcontainer⟩
      rcases List.mem_append.mp hn with hn | hn
      · obtain ⟨more, view, hview, hnode⟩ := ihc (fun key own hm =>
          .view hcontainer (get?_routes ..) hm) hn
        rw [List.append_assoc, ← List.append_assoc [k]] at hnode
        exact ⟨[k] ++ more, view, hview, hnode⟩
      · exact ih (fun key own hm => h key own (List.mem_cons_of_mem _ hm)) hn

/-! ## 3. The nodes of a specification -/

section Spec

variable {spec : Spec}

theorem node_layout {key : String} {layout : Layout} (h : (key, layout) ∈ spec.layouts) :
    Node (routesMembers spec bindings) [key] (layoutMembers bindings key layout) :=
  .layout (List.mem_map.mpr ⟨(key, layout), h, rfl⟩)

variable (bindings) in
/-- **Every view of a layout is a node below it.** -/
theorem node_view {key : String} {layout : Layout} (h : (key, layout) ∈ spec.layouts) {k : String} {info : ViewInfo}
    (hn : (k, info) ∈ layout.views.nodes) : ∃ more view, view.toViewInfo = info ∧
      Node (routesMembers spec bindings) (key :: (more ++ [k])) (viewNodeMembers bindings key k view) := by
  cases hc : layout.children with
  | none =>
      rw [layout.views_none hc] at hn
      cases hn
  | some views =>
      have hroutes : Keyed.get? (layoutMembers bindings key layout) "routes" =
          some (.plain (viewMembers bindings key views)) := by
        rw [layoutMembers_eq, get?_routes, hc]
        rfl
      rw [layout.views_some hc] at hn
      exact node_among (fun k own hm => .view (node_layout h) hroutes hm) hn

/-- **Every node is a layout, or a view below one.** -/
theorem node_cases {trail : List String} {own : Members} (h : Node (routesMembers spec bindings) trail own) :
    ∃ key layout, (key, layout) ∈ spec.layouts ∧
      ((trail = [key] ∧ own = layoutMembers bindings key layout) ∨
        ∃ more k view, trail = key :: (more ++ [k]) ∧ own = viewNodeMembers bindings key k view ∧
          Among layout.views k view) := by
  induction h with
  | layout hm =>
      obtain ⟨⟨key, layout⟩, hl, he⟩ := List.mem_map.mp hm
      cases he
      exact ⟨_, layout, hl, .inl ⟨rfl, rfl⟩⟩
  | @view trail own views k inner h hr hm ih =>
      obtain ⟨key, layout, hl, ⟨rfl, rfl⟩ | ⟨more, last, above, rfl, rfl, habove⟩⟩ := ih
      · rw [layoutMembers_eq, get?_routes, Option.map_map] at hr
        obtain ⟨children, hc, he⟩ := Option.map_eq_some_iff.mp hr
        cases he
        obtain ⟨view, hinner, hamong⟩ := mem_viewMembers hm
        rw [← layout.views_some hc] at hamong
        exact ⟨key, layout, hl, .inr ⟨[], k, view, rfl, hinner, hamong⟩⟩
      · rw [viewNodeMembers, get?_routes, Option.map_map] at hr
        obtain ⟨children, hc, he⟩ := Option.map_eq_some_iff.mp hr
        cases he
        obtain ⟨view, hinner, hamong⟩ := mem_viewMembers hm
        exact ⟨key, layout, hl, .inr ⟨more ++ [last], k, view, rfl, hinner, hamong.mono (habove.below children hc)⟩⟩

end Spec

end RouteScaffold.RoutingModule
