import RouteScaffold.Proofs.Routing.Elements
import RouteScaffold.Proofs.Script.Value
import RouteScaffold.RoutingModule.Literal

/-!
# The routes as an object

The object that the literal of the routes stands for: under the key of each node an object with its path, component,
title and icon, and under `routes` the nodes below it, if it has a mapping of nodes. Where the imports are those of the
specification itself, the component of every node is found among them (`named_ofSpec`).
-/

namespace RouteScaffold.RoutingModule

open Script

/-! ## 1. The object -/

/-- The members that every node has. -/
def nodeMembers (path element title : String) : Members :=
  [("path", .text path), ("element", .component element), ("title", .text title)]

/-- The members that stand for views side by side. -/
def viewMembers (bindings : Bindings) (layout : String) : Views → Members
  | .nil => []
  | .leaf key info rest =>
    (key, .plain (nodeMembers info.path (elementOf bindings layout key) info.title ++
      [("icon", .component info.icon)])) :: viewMembers bindings layout rest
  | .container key info children rest =>
    (key, .plain (nodeMembers info.path (elementOf bindings layout key) info.title ++
      [("icon", .component info.icon), ("routes", .plain (viewMembers bindings layout children))])) ::
        viewMembers bindings layout rest

/-- The component of a layout as the literal names it. -/
def layoutElementOf (bindings : Bindings) (key : String) : String :=
  ((bindings.layout? key).map Import.binding).getD ""

/-- The members of a layout. -/
def layoutMembers (bindings : Bindings) (key : String) (layout : Layout) : Members :=
  nodeMembers layout.path (layoutElementOf bindings key) layout.title ++
    (layout.icon.map fun icon => ("icon", Value.component icon)).toList ++
    (layout.children.map fun views => ("routes", Value.plain (viewMembers bindings key views))).toList

/-- The members that stand for the layouts. -/
def routesMembers (spec : Spec) (bindings : Bindings) : Members :=
  spec.layouts.map fun (key, layout) => (key, .plain (layoutMembers bindings key layout))

/-! ## 2. The components of nodes -/

/-- The nodes of a layout have the names of their imports as components. -/
structure Named (table : Bindings) (entry : String × LayoutImports) : Prop where
  layout : layoutElementOf table entry.1 = entry.2.layout.binding
  views : ∀ view ∈ entry.2.views, elementOf table entry.1 view.1 = view.2.binding

/-- The imports of an accepted specification are found by layout and key. -/
theorem found_ofSpec {spec : Spec} (h : spec.Accepted) {entry : String × LayoutImports}
    (he : entry ∈ Bindings.ofSpec spec) :
    (Bindings.ofSpec spec).layout? entry.1 = some entry.2.layout ∧
      ∀ view ∈ entry.2.views, (Bindings.ofSpec spec).view? entry.1 view.1 = some view.2 := by
  obtain ⟨key, imports⟩ := entry
  have ht : (Bindings.ofSpec spec).keys.Nodup := by
    rw [Bindings.ofSpec_eq h, Bindings.keys_tableOf]
    exact h.nodup_keys
  have hviews : imports.views.keys.Nodup := by
    have he' := he
    rw [Bindings.ofSpec_eq h] at he'
    obtain ⟨layout, before, hl, rfl⟩ := Bindings.mem_tableOf he'
    rw [Bindings.keys_importsOf]
    exact (h.layouts _ hl).nodup_keys
  refine ⟨?_, fun view hv => (Bindings.viewElement_of_mem ht he hviews hv).1⟩
  unfold Bindings.layout?
  rw [Keyed.get?_of_mem ht he]
  rfl

/-- **The nodes of an accepted specification have the names of their imports as components.** -/
theorem named_ofSpec {spec : Spec} (h : spec.Accepted) :
    ∀ entry ∈ Bindings.ofSpec spec, Named (Bindings.ofSpec spec) entry := by
  intro entry he
  obtain ⟨hlayout, hviews⟩ := found_ofSpec h he
  refine ⟨?_, fun view hv => ?_⟩
  · unfold layoutElementOf
    rw [hlayout]
    rfl
  · unfold elementOf
    rw [hviews view hv]
    rfl

/-- A layout of an accepted specification has imports, one for each of its views. -/
theorem exists_imports {spec : Spec} (h : spec.Accepted) {key : String} {layout : Layout}
    (hl : (key, layout) ∈ spec.layouts) :
    ∃ imports, (key, imports) ∈ Bindings.ofSpec spec ∧ imports.views.keys = layout.views.keys := by
  obtain ⟨i, hi⟩ := List.mem_iff_getElem?.mp hl
  obtain ⟨before, hb⟩ := Bindings.getElem?_tableOf spec.layouts (spec.layouts.keys.map Name.layout) i key layout hi
  rw [← Bindings.ofSpec_eq h] at hb
  exact ⟨_, List.mem_of_getElem? hb, Bindings.keys_importsOf key layout.views.nodes before⟩

/-- The components that the literal names are those that the route table has. -/
theorem elements_ofSpec {spec : Spec} (h : spec.Accepted) {key : String} {layout : Layout}
    (hl : (key, layout) ∈ spec.layouts) :
    layoutElementOf (Bindings.ofSpec spec) key = (layout.element (Bindings.ofSpec spec) key).element ∧
      ∀ k ∈ layout.views.keys, elementOf (Bindings.ofSpec spec) key k = viewElement (Bindings.ofSpec spec) key k := by
  obtain ⟨imports, he, hkeys⟩ := exists_imports h hl
  obtain ⟨hlayout, hviews⟩ := found_ofSpec h he
  refine ⟨?_, fun k hk => ?_⟩
  · unfold layoutElementOf Layout.element
    rw [hlayout]
    rfl
  · rw [← hkeys] at hk
    obtain ⟨view, hv, rfl⟩ := List.mem_map.mp hk
    unfold elementOf viewElement
    rw [hviews view hv]
    rfl

end RouteScaffold.RoutingModule
