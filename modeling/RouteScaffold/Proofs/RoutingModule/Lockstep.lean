import RouteScaffold.Proofs.RoutingModule.Program
import RouteScaffold.Proofs.RoutingModule.RoutesObject
import RouteScaffold.Proofs.Routing.PathJoin
import RouteScaffold.Proofs.Routing.Trails
import RouteScaffold.RoutingModule.Parts

/-!
# The running part and the route table in lockstep

Loaded with the object of the routes, the running part of the routing module computes the routing entries and the
sitemap of the route table, and its path table too unless a key is `__proto__` (`lockstep`): setting a member under this
name makes no member, so that the path table of the running part loses what the route table has there.
-/

namespace RouteScaffold.RoutingModule

open Script

/-! ## 1. Routes -/

/-- What the running part asks of a route. -/
structure IsRoute (value : Value) (path element title : String) (below : Option Members) : Prop where
  path : value.member? "path" = some (.text path)
  element : value.member? "element" = some (.component element)
  title : value.member? "title" = some (.text title)
  below : value.member? "routes" = some ((below.map Value.plain).getD .missing)

theorem isRoute_leaf (info : ViewInfo) (element : String) :
    IsRoute (.plain (nodeMembers info.path element info.title ++ [("icon", .component info.icon)]))
      info.path element info.title none := ⟨rfl, rfl, rfl, rfl⟩

theorem isRoute_container (info : ViewInfo) (element : String) (below : Members) :
    IsRoute (.plain (nodeMembers info.path element info.title ++
        [("icon", .component info.icon), ("routes", .plain below)]))
      info.path element info.title (some below) := ⟨rfl, rfl, rfl, rfl⟩

theorem isRoute_layout (bindings : Bindings) (key : String) (layout : Layout) :
    IsRoute (.plain (layoutMembers bindings key layout)) layout.path (layoutElementOf bindings key) layout.title
      (layout.children.map (viewMembers bindings key)) := by
  unfold layoutMembers
  cases layout.icon <;> cases layout.children <;> exact ⟨rfl, rfl, rfl, rfl⟩

section Steps

variable {value : Value} {path element title : String} (depth : Nat) (parent key : String)

theorem IsRoute.joined {below : Option Members} (h : IsRoute value path element title below) :
    joined? (depth + 1) (.text parent) value = some (.text (joinPath parent path)) := by
  rw [joined?, h.path]
  exact call_joinPath depth parent path

/-- A route with nothing below it has its full path in the path table. -/
theorem IsRoute.setPath_leaf (h : IsRoute value path element title none) (table : Value) :
    setPath? (depth + 1) (.text parent) table (key, value) =
      table.put? (.text key) (.text (joinPath parent path)) := by
  rw [setPath?, h.joined, Option.bind_some, h.below]
  rfl

/-- A route with routes below it has their path table there. -/
theorem IsRoute.setPath_nested {below : Members} (h : IsRoute value path element title (some below)) {nested : Value}
    (hn : running.call? (depth + 1) "buildPaths" [.plain below, .text (joinPath parent path)] = some nested)
    (table : Value) : setPath? (depth + 1) (.text parent) table (key, value) = table.put? (.text key) nested := by
  rw [setPath?, h.joined, Option.bind_some, h.below]
  simp only [Option.map_some, Option.getD_some, Option.bind_some, Value.isTrue_plain, if_pos, hn]

theorem IsRoute.addEntries_leaf (h : IsRoute value path element title none) (items : List Value) :
    addEntries? (depth + 1) (.text parent) (.array items) (key, value) =
      some (.array (items ++ [viewMarkup key (.text (joinPath parent path)) (.component element)])) := by
  rw [addEntries?, h.joined, Option.bind_some, h.element, h.below]
  rfl

theorem IsRoute.addEntries_nested {below : Members} (h : IsRoute value path element title (some below))
    {nested : List Value}
    (hn : running.call? (depth + 1) "buildElementTree" [.plain below, .text (joinPath parent path)] =
      some (.array nested)) (items : List Value) :
    addEntries? (depth + 1) (.text parent) (.array items) (key, value) =
      some (.array (items ++ viewMarkup key (.text (joinPath parent path)) (.component element) :: nested)) := by
  rw [addEntries?, h.joined, Option.bind_some, h.element, h.below]
  simp only [Option.map_some, Option.getD_some, Option.bind_some, Value.isTrue_plain, if_pos, hn, Value.pushAll?_array,
    List.append_assoc, List.singleton_append]

theorem IsRoute.viewItem_leaf (h : IsRoute value path element title none) :
    viewItem? (depth + 1) (.text parent) (key, value) =
      some (itemMarkup key (linkMarkup (.text title) (.text (joinPath parent path))) .missing) := by
  rw [viewItem?, h.joined, Option.bind_some, h.title, listBelow?, h.below]
  rfl

theorem IsRoute.viewItem_nested {below : Members} (h : IsRoute value path element title (some below)) {nested : Value}
    (hn : running.call? (depth + 1) "buildSitemap" [.plain below, .text (joinPath parent path)] = some nested) :
    viewItem? (depth + 1) (.text parent) (key, value) =
      some (itemMarkup key (linkMarkup (.text title) (.text (joinPath parent path))) nested) := by
  rw [viewItem?, h.joined, Option.bind_some, h.title, listBelow?, h.below]
  simp only [Option.map_some, Option.getD_some, Option.bind_some, Value.isTrue_plain, if_pos, hn]

theorem IsRoute.layoutElement_leaf (h : IsRoute value path element title none) :
    layoutElement? depth (key, value) = some (layoutMarkup key (.component element) .nothing) := by
  rw [layoutElement?, h.element, Option.bind_some, h.below]
  rfl

theorem IsRoute.layoutElement_nested {below : Members} (h : IsRoute value path element title (some below))
    {nested : Value} (hn : running.call? depth "buildElementTree" [.plain below, .text path] = some nested) :
    layoutElement? depth (key, value) = some (layoutMarkup key (.component element) nested) := by
  rw [layoutElement?, h.element, Option.bind_some, h.below]
  simp only [Option.map_some, Option.getD_some, Option.bind_some, Value.isTrue_plain, if_pos, h.path, hn]

theorem IsRoute.layoutItem_leaf (h : IsRoute value path element title none) :
    layoutItem? depth (key, value) = some (itemMarkup key (.text title) .missing) := by
  rw [layoutItem?, h.path, Option.bind_some, h.title, listBelow?, h.below]
  rfl

theorem IsRoute.layoutItem_nested {below : Members} (h : IsRoute value path element title (some below))
    {nested : Value} (hn : running.call? depth "buildSitemap" [.plain below, .text path] = some nested) :
    layoutItem? depth (key, value) = some (itemMarkup key (.text title) nested) := by
  rw [layoutItem?, h.path, Option.bind_some, h.title, listBelow?, h.below]
  simp only [Option.map_some, Option.getD_some, Option.bind_some, Value.isTrue_plain, if_pos, hn]

end Steps

/-! ## 2. Layout by layout -/

section Lists

variable {α β : Type}

theorem foldlM_ext {f g : α → β → Option α} {l : List β} (h : ∀ a, ∀ b ∈ l, f a b = g a b) (a : α) :
    l.foldlM f a = l.foldlM g a := by
  induction l generalizing a with
  | nil => rfl
  | cons b rest ih =>
      rw [List.foldlM_cons, List.foldlM_cons, h a b List.mem_cons_self]
      exact congrArg _ (funext fun a => ih (fun a b hb => h a b (List.mem_cons_of_mem _ hb)) a)

theorem mapM_eq_some {f : α → Option β} {g : α → β} {l : List α} (h : ∀ a ∈ l, f a = some (g a)) :
    l.mapM f = some (l.map g) := by
  induction l with
  | nil => rfl
  | cons a rest ih =>
      rw [List.mapM_cons, h a List.mem_cons_self, ih fun a ha => h a (List.mem_cons_of_mem _ ha)]
      rfl

end Lists

/-- Where every layout has something set under its key, this is set in order. -/
theorem foldlM_routesMembers {bindings : Bindings} {layouts : Keyed Layout}
    {step : Value → String × Value → Option Value} {value : Layout → Value}
    (h : ∀ table, ∀ entry ∈ layouts, step table (entry.1, .plain (layoutMembers bindings entry.1 entry.2)) =
      table.put? (.text entry.1) (value entry.2)) (table : Value) :
    (routesMembers ⟨layouts⟩ bindings).foldlM step table =
      (layouts.map fun entry => (entry.1, value entry.2)).foldlM (fun table m => table.put? (.text m.1) m.2) table := by
  rw [routesMembers, List.foldlM_map, List.foldlM_map]
  exact foldlM_ext h table

/-- Where every layout has something made of it, this is made in order. -/
theorem mapM_routesMembers {bindings : Bindings} {layouts : Keyed Layout} {step : String × Value → Option Value}
    {value : String × Layout → Value}
    (h : ∀ entry ∈ layouts, step (entry.1, .plain (layoutMembers bindings entry.1 entry.2)) = some (value entry)) :
    (routesMembers ⟨layouts⟩ bindings).mapM step = some (layouts.map value) := by
  rw [routesMembers, List.mapM_map]
  exact mapM_eq_some h

/-! ## 3. The path table -/

/-- The members of a path table as an object. -/
def tableMembers : PathTable → Members
  | .nil => []
  | .leaf key path rest => (key, .text path) :: tableMembers rest
  | .nested key children rest => (key, .plain (tableMembers children)) :: tableMembers rest

/-- The members that are set for views below a path. -/
def setPaths (parent : String) : Views → Members
  | .nil => []
  | .leaf key info rest => (key, .text (joinPath parent info.path)) :: setPaths parent rest
  | .container key info children rest =>
    (key, .assembled (setPaths (joinPath parent info.path) children)) :: setPaths parent rest

theorem keys_setPaths (parent : String) (views : Views) :
    Keyed.keys (setPaths parent views) = Keyed.keys (tableMembers (views.paths parent)) := by
  induction views generalizing parent with
  | nil => rfl
  | leaf key info rest ih => exact congrArg (key :: ·) (ih parent)
  | container key info children rest _ ih => exact congrArg (key :: ·) (ih parent)

theorem sublist_setPaths (parent : String) (views : Views) :
    (Keyed.keys (setPaths parent views)).Sublist views.keys := by
  induction views generalizing parent with
  | nil => exact List.Sublist.refl _
  | leaf key info rest ih => exact (ih parent).cons_cons key
  | container key info children rest _ ih =>
      rw [Views.keys_container]
      exact ((ih parent).trans (List.sublist_append_right _ _)).cons_cons key

/-- Where members are set under names that differ, the path table is the object that comes of it. -/
theorem call_buildPaths_eq {depth : Nat} {members settings : Members} {parent : String}
    (hn : (Keyed.keys settings).Nodup)
    (h : ∀ table, members.foldlM (setPath? depth (.text parent)) table =
      settings.foldlM (fun table m => table.put? (.text m.1) m.2) table) :
    running.call? (depth + 1) "buildPaths" [.plain members, .text parent] = some (.assembled settings) := by
  rw [call_buildPaths, h]
  exact Value.foldlM_put?_plain hn

/-- **The running part sets the paths of views in order.** -/
theorem foldlM_setPath_views (bindings : Bindings) (layout : String) {views : Views} (hn : views.keys.Nodup)
    {depth : Nat} (hd : views.count + 1 ≤ depth) (parent : String) (table : Value) :
    (viewMembers bindings layout views).foldlM (setPath? depth (.text parent)) table =
      (setPaths parent views).foldlM (fun table m => table.put? (.text m.1) m.2) table := by
  induction views generalizing depth parent table with
  | nil => rfl
  | leaf key info rest ih =>
      obtain ⟨d, rfl⟩ : ∃ d, depth = d + 1 := ⟨depth - 1, by omega⟩
      rw [Views.count] at hd
      have hrest := (List.nodup_cons.mp hn).2
      rw [viewMembers, setPaths, List.foldlM_cons, List.foldlM_cons, (isRoute_leaf info _).setPath_leaf]
      exact congrArg _ (funext fun table => ih hrest (by omega) parent table)
  | container key info children rest ihc ih =>
      obtain ⟨d, rfl⟩ : ∃ d, depth = d + 1 := ⟨depth - 1, by omega⟩
      rw [Views.count] at hd
      rw [Views.keys_container] at hn
      obtain ⟨hchildren, hrest, -⟩ := List.nodup_append.mp (List.nodup_cons.mp hn).2
      have hnested := call_buildPaths_eq ((sublist_setPaths (joinPath parent info.path) children).nodup hchildren)
        fun table => ihc hchildren (by omega : children.count + 1 ≤ d) (joinPath parent info.path) table
      rw [viewMembers, setPaths, List.foldlM_cons, List.foldlM_cons,
        (isRoute_container info _ _).setPath_nested d parent key hnested]
      exact congrArg _ (funext fun table => ih hrest (by omega) parent table)

/-- Views are set as the route table has them exactly if no key is the one that is no member. -/
theorem setPaths_eq_iff (parent : String) (views : Views) :
    ("__proto__" ∉ Keyed.keys (setPaths parent views) ∧ setPaths parent views = tableMembers (views.paths parent)) ↔
      "__proto__" ∉ views.keys := by
  induction views generalizing parent with
  | nil => simp [setPaths, tableMembers, Views.paths, Views.keys, Views.nodes, Keyed.keys]
  | leaf key info rest ih =>
      have hkeys : (Views.leaf key info rest).keys = key :: rest.keys := rfl
      rw [hkeys, List.mem_cons, not_or, ← ih parent]
      simp only [setPaths, tableMembers, Views.paths, Keyed.keys, List.map_cons, List.mem_cons, not_or,
        List.cons.injEq, true_and, and_assoc]
  | container key info children rest ihc ih =>
      have hnested := Value.assembled_eq_plain (keys_setPaths (joinPath parent info.path) children)
      rw [ihc] at hnested
      rw [Views.keys_container, List.mem_cons, List.mem_append, not_or, not_or, ← ih parent, ← hnested]
      simp only [setPaths, tableMembers, Views.paths, Keyed.keys, List.map_cons, List.mem_cons, not_or,
        List.cons.injEq, Prod.mk.injEq, true_and, and_assoc]
      constructor
      · rintro ⟨h1, h2, h3, h4⟩
        exact ⟨h1, h3, h2, h4⟩
      · rintro ⟨h1, h3, h2, h4⟩
        exact ⟨h1, h2, h3, h4⟩

/-- What is set for a layout. -/
def layoutPath (layout : Layout) : Value :=
  match layout.children with
  | none => .text layout.path
  | some views => .assembled (setPaths layout.path views)

/-- The members that are set for layouts. -/
def layoutPaths (layouts : Keyed Layout) : Members := layouts.map fun entry => (entry.1, layoutPath entry.2)

/-- The running part sets the path or the paths of a layout. -/
theorem setPath_layout (bindings : Bindings) (key : String) {layout : Layout} (hn : layout.views.keys.Nodup)
    {depth : Nat} (hd : layout.views.count + 2 ≤ depth) (table : Value) :
    setPath? depth (.text "") table (key, .plain (layoutMembers bindings key layout)) =
      table.put? (.text key) (layoutPath layout) := by
  obtain ⟨d, rfl⟩ : ∃ d, depth = d + 2 := ⟨depth - 2, by omega⟩
  have hroute := isRoute_layout bindings key layout
  unfold layoutPath
  cases hc : layout.children with
  | none =>
      rw [hc] at hroute
      rw [hroute.setPath_leaf, empty_joinPath]
  | some views =>
      rw [layout.views_some hc] at hn hd
      rw [hc] at hroute
      have hnested := call_buildPaths_eq ((sublist_setPaths layout.path views).nodup hn)
        fun table => foldlM_setPath_views bindings key hn (by omega : views.count + 1 ≤ d + 1) layout.path table
      rw [← empty_joinPath layout.path] at hnested
      rw [hroute.setPath_nested (d + 1) "" key hnested, empty_joinPath]

theorem keys_layoutPaths (layouts : Keyed Layout) :
    Keyed.keys (layoutPaths layouts) = Keyed.keys (tableMembers (.ofLayouts layouts)) := by
  induction layouts with
  | nil => rfl
  | cons entry rest ih =>
      obtain ⟨key, layout⟩ := entry
      rw [PathTable.ofLayouts]
      cases layout.children with
      | none => exact congrArg (key :: ·) ih
      | some views => exact congrArg (key :: ·) ih

/-- Layouts are set as the route table has them exactly if no key of a view is the one that is no member. -/
theorem layoutPaths_eq_iff (layouts : Keyed Layout) :
    layoutPaths layouts = tableMembers (.ofLayouts layouts) ↔
      ∀ entry ∈ layouts, "__proto__" ∉ entry.2.views.keys := by
  induction layouts with
  | nil => exact iff_of_true rfl fun entry he => by cases he
  | cons entry rest ih =>
      obtain ⟨key, layout⟩ := entry
      have hcons : layoutPaths ((key, layout) :: rest) = (key, layoutPath layout) :: layoutPaths rest := rfl
      rw [List.forall_mem_cons, ← ih, PathTable.ofLayouts, hcons, layoutPath]
      cases hc : layout.children with
      | none =>
          have hviews : "__proto__" ∉ layout.views.keys := by
            rw [layout.views_none hc]
            exact fun h => by cases h
          simp only [tableMembers, List.cons.injEq, true_and, hviews, not_false_eq_true]
      | some views =>
          have hnested := Value.assembled_eq_plain (keys_setPaths layout.path views)
          rw [setPaths_eq_iff] at hnested
          rw [layout.views_some hc, ← hnested]
          simp only [tableMembers, List.cons.injEq, Prod.mk.injEq, true_and]

/-! ## 4. Routing entries -/

/-- The markup of a routing entry. -/
def entryMarkup (e : ViewElement) : Value := viewMarkup e.key (.text e.path) (.component e.element)

/-- **The running part adds the routing entries of views in order.** -/
theorem foldlM_addEntries {bindings : Bindings} {layout : String} {views : Views}
    (h : ∀ key ∈ views.keys, elementOf bindings layout key = viewElement bindings layout key)
    {depth : Nat} (hd : views.count + 1 ≤ depth) (parent : String) (items : List Value) :
    (viewMembers bindings layout views).foldlM (addEntries? depth (.text parent)) (.array items) =
      some (.array (items ++ (views.elements bindings layout parent).map entryMarkup)) := by
  induction views generalizing depth parent items with
  | nil =>
      rw [Views.elements, List.map_nil, List.append_nil]
      rfl
  | leaf key info rest ih =>
      obtain ⟨d, rfl⟩ : ∃ d, depth = d + 1 := ⟨depth - 1, by omega⟩
      rw [Views.count] at hd
      have hkeys : (Views.leaf key info rest).keys = key :: rest.keys := rfl
      rw [hkeys, List.forall_mem_cons] at h
      rw [viewMembers, List.foldlM_cons, (isRoute_leaf info _).addEntries_leaf]
      refine (ih h.2 (by omega) parent _).trans ?_
      rw [h.1, List.append_assoc]
      rfl
  | container key info children rest ihc ih =>
      obtain ⟨d, rfl⟩ : ∃ d, depth = d + 1 := ⟨depth - 1, by omega⟩
      rw [Views.count] at hd
      rw [Views.keys_container, List.forall_mem_cons, List.forall_mem_append] at h
      have hnested : running.call? (d + 1) "buildElementTree"
          [.plain (viewMembers bindings layout children), .text (joinPath parent info.path)] =
            some (.array ((children.elements bindings layout (joinPath parent info.path)).map entryMarkup)) := by
        rw [call_buildElementTree_below]
        exact ihc h.2.1 (by omega) (joinPath parent info.path) []
      rw [viewMembers, List.foldlM_cons, (isRoute_container info _ _).addEntries_nested d parent key hnested]
      refine (ih h.2.2 (by omega) parent _).trans ?_
      rw [h.1, Views.elements, List.map_cons, List.map_append, List.append_assoc, List.cons_append]
      rfl

/-- What stands between the tags of a layout's routing entry. -/
def viewsMarkup (bindings : Bindings) (key : String) (layout : Layout) : Value :=
  match layout.children with
  | none => .nothing
  | some views => .array ((views.elements bindings key layout.path).map entryMarkup)

/-- The running part makes the routing entry of a layout. -/
theorem layoutElement_layout {bindings : Bindings} {key : String} {layout : Layout}
    (h : ∀ k ∈ layout.views.keys, elementOf bindings key k = viewElement bindings key k) {depth : Nat}
    (hd : layout.views.count + 2 ≤ depth) :
    layoutElement? depth (key, .plain (layoutMembers bindings key layout)) =
      some (layoutMarkup key (.component (layoutElementOf bindings key)) (viewsMarkup bindings key layout)) := by
  obtain ⟨d, rfl⟩ : ∃ d, depth = d + 2 := ⟨depth - 2, by omega⟩
  have hroute := isRoute_layout bindings key layout
  unfold viewsMarkup
  cases hc : layout.children with
  | none =>
      rw [hc] at hroute
      exact hroute.layoutElement_leaf (d + 2) key
  | some views =>
      rw [layout.views_some hc] at h hd
      rw [hc] at hroute
      refine hroute.layoutElement_nested (d + 2) key ?_
      rw [call_buildElementTree_below]
      exact foldlM_addEntries h (by omega) layout.path []

/-- The markup shows the routing entry of a layout; without views there may be no list of them. -/
def ShowsLayout (value : Value) (e : LayoutElement) : Prop :=
  ∃ views, value = layoutMarkup e.key (.component e.element) views ∧
    (views = .array (e.views.map entryMarkup) ∨ views = .nothing ∧ e.views = [])

theorem showsLayout {bindings : Bindings} {key : String} {layout : Layout}
    (h : layoutElementOf bindings key = (layout.element bindings key).element) :
    ShowsLayout (layoutMarkup key (.component (layoutElementOf bindings key)) (viewsMarkup bindings key layout))
      (layout.element bindings key) := by
  refine ⟨_, by rw [h]; rfl, ?_⟩
  unfold viewsMarkup
  cases hc : layout.children with
  | none => exact .inr ⟨rfl, by rw [Layout.element, layout.views_none hc]; rfl⟩
  | some views => exact .inl (by rw [Layout.element, layout.views_some hc])

/-! ## 5. The sitemap -/

/-- The items of views below a path. -/
def viewItems (parent : String) : Views → List Value
  | .nil => []
  | .leaf key info rest =>
    itemMarkup key (linkMarkup (.text info.title) (.text (joinPath parent info.path))) .missing :: viewItems parent rest
  | .container key info children rest =>
    itemMarkup key (linkMarkup (.text info.title) (.text (joinPath parent info.path)))
      (listMarkup (viewItems (joinPath parent info.path) children)) :: viewItems parent rest

/-- **The running part makes the items of views in order.** -/
theorem mapM_viewItem (bindings : Bindings) (layout : String) (views : Views) {depth : Nat}
    (hd : views.count + 1 ≤ depth) (parent : String) :
    (viewMembers bindings layout views).mapM (viewItem? depth (.text parent)) = some (viewItems parent views) := by
  induction views generalizing depth parent with
  | nil => rfl
  | leaf key info rest ih =>
      obtain ⟨d, rfl⟩ : ∃ d, depth = d + 1 := ⟨depth - 1, by omega⟩
      rw [Views.count] at hd
      rw [viewMembers, List.mapM_cons, (isRoute_leaf info _).viewItem_leaf, ih (by omega)]
      rfl
  | container key info children rest ihc ih =>
      obtain ⟨d, rfl⟩ : ∃ d, depth = d + 1 := ⟨depth - 1, by omega⟩
      rw [Views.count] at hd
      have hnested : running.call? (d + 1) "buildSitemap"
          [.plain (viewMembers bindings layout children), .text (joinPath parent info.path)] =
            some (listMarkup (viewItems (joinPath parent info.path) children)) := by
        rw [call_buildSitemap_below, ihc (by omega)]
        rfl
      rw [viewMembers, List.mapM_cons, (isRoute_container info _ _).viewItem_nested d parent key hnested,
        ih (by omega)]
      rfl

/-- What stands below the item of a layout. -/
def viewList (layout : Layout) : Value :=
  match layout.children with
  | none => .missing
  | some views => listMarkup (viewItems layout.path views)

/-- The running part makes the item of a layout. -/
theorem layoutItem_layout (bindings : Bindings) (key : String) {layout : Layout} {depth : Nat}
    (hd : layout.views.count + 2 ≤ depth) :
    layoutItem? depth (key, .plain (layoutMembers bindings key layout)) =
      some (itemMarkup key (.text layout.title) (viewList layout)) := by
  obtain ⟨d, rfl⟩ : ∃ d, depth = d + 2 := ⟨depth - 2, by omega⟩
  have hroute := isRoute_layout bindings key layout
  unfold viewList
  cases hc : layout.children with
  | none =>
      rw [hc] at hroute
      exact hroute.layoutItem_leaf (d + 2) key
  | some views =>
      rw [layout.views_some hc] at hd
      rw [hc] at hroute
      refine hroute.layoutItem_nested (d + 2) key ?_
      rw [call_buildSitemap_below, mapM_viewItem bindings key views (by omega)]
      rfl

/-- The items show a sitemap: each its title and where it leads, and below it a list or, without items, nothing. -/
def ShowsItems : List Value → Sitemap → Prop
  | items, .nil => items = []
  | items, .item title href children rest =>
    ∃ key below more, items = itemMarkup key (linkMarkup (.text title) (.text href)) below :: more ∧
      (below = .missing ∧ children = .nil ∨ ∃ nested, below = listMarkup nested ∧ ShowsItems nested children) ∧
      ShowsItems more rest

theorem showsItems (parent : String) (views : Views) : ShowsItems (viewItems parent views) (views.sitemap parent) := by
  induction views generalizing parent with
  | nil => rfl
  | leaf key info rest ih => exact ⟨key, .missing, _, rfl, .inl ⟨rfl, rfl⟩, ih parent⟩
  | container key info children rest ihc ih =>
      exact ⟨key, _, _, rfl, .inr ⟨_, rfl, ihc (joinPath parent info.path)⟩, ih parent⟩

/-- The markup shows the section of a layout: its title only, and below it a list or, without items, nothing. -/
def ShowsSection (value : Value) (s : SitemapSection) : Prop :=
  ∃ key below, value = itemMarkup key (.text s.title) below ∧
    (below = .missing ∧ s.items = .nil ∨ ∃ nested, below = listMarkup nested ∧ ShowsItems nested s.items)

theorem showsSection (key : String) (layout : Layout) :
    ShowsSection (itemMarkup key (.text layout.title) (viewList layout)) layout.sitemapSection := by
  refine ⟨key, _, rfl, ?_⟩
  unfold viewList
  cases hc : layout.children with
  | none => exact .inl ⟨rfl, by rw [Layout.sitemapSection, layout.views_none hc]; rfl⟩
  | some views =>
      refine .inr ⟨_, rfl, ?_⟩
      rw [Layout.sitemapSection, layout.views_some hc]
      exact showsItems layout.path views

/-! ## 6. In lockstep -/

/-- What the running part computes, against the route table of a specification. -/
structure InLockstep (spec : Spec) (paths elements sitemap : Value) : Prop where
  /-- The path tables are equal exactly if no key is `__proto__`. -/
  paths : paths = .plain (tableMembers (RouteTable.build spec (Bindings.ofSpec spec)).paths) ↔
    "__proto__" ∉ spec.layouts.keys ∧ ∀ entry ∈ spec.layouts, "__proto__" ∉ entry.2.views.keys
  elements : ∃ entries, elements = .array entries ∧
    List.Forall₂ ShowsLayout entries (RouteTable.build spec (Bindings.ofSpec spec)).elements
  sitemap : ∃ items, sitemap = listMarkup items ∧
    List.Forall₂ ShowsSection items (RouteTable.build spec (Bindings.ofSpec spec)).sitemap

theorem count_le_viewCount {layouts : Keyed Layout} {entry : String × Layout} (h : entry ∈ layouts) :
    entry.2.views.count ≤ Spec.viewCount ⟨layouts⟩ := by
  induction layouts with
  | nil => cases h
  | cons first rest ih =>
      have hcons : Spec.viewCount ⟨first :: rest⟩ = first.2.views.count + Spec.viewCount ⟨rest⟩ := rfl
      rw [hcons]
      rcases List.mem_cons.mp h with rfl | h
      · omega
      · have := ih h
        omega

/-- The object of the routes of a specification. -/
def routesObject (spec : Spec) : Value := .plain (routesMembers spec (Bindings.ofSpec spec))

/-- The markup of the routing entries of a specification. -/
def layoutEntries (spec : Spec) : List Value :=
  spec.layouts.map fun entry => layoutMarkup entry.1 (.component (layoutElementOf (Bindings.ofSpec spec) entry.1))
    (viewsMarkup (Bindings.ofSpec spec) entry.1 entry.2)

/-- The items of the sitemap of a specification. -/
def layoutItems (spec : Spec) : List Value :=
  spec.layouts.map fun entry => itemMarkup entry.1 (.text entry.2.title) (viewList entry.2)

theorem keys_paths (layouts : Keyed Layout) : Keyed.keys (layoutPaths layouts) = layouts.keys := List.map_map

/-- **What the running part computes for a specification.** -/
theorem load?_routes {spec : Spec} (h : spec.Accepted) {depth : Nat} (hd : spec.viewCount + 3 ≤ depth) :
    running.load? depth [("routes", routesObject spec)] = some [("sitemap", listMarkup (layoutItems spec)),
      ("routeComponents", .array (layoutEntries spec)), ("paths", .assembled (layoutPaths spec.layouts)),
      ("routes", routesObject spec)] := by
  obtain ⟨d, rfl⟩ : ∃ d, depth = d + 1 := ⟨depth - 1, by omega⟩
  have hdepth : ∀ entry ∈ spec.layouts, entry.2.views.count + 2 ≤ d := fun entry he => by
    have : entry.2.views.count ≤ spec.viewCount := count_le_viewCount he
    omega
  have hpaths := call_buildPaths_eq (keys_paths spec.layouts ▸ h.nodup_keys)
    (foldlM_routesMembers fun table entry he =>
      setPath_layout (Bindings.ofSpec spec) entry.1 (h.layouts entry he).nodup_keys (hdepth entry he) table)
  have hentries := call_buildElementTree d (routesMembers spec (Bindings.ofSpec spec))
  rw [mapM_routesMembers fun entry he => layoutElement_layout (elements_ofSpec h he).2 (hdepth entry he)] at hentries
  have hsitemap := call_buildSitemap d (routesMembers spec (Bindings.ofSpec spec))
  rw [mapM_routesMembers fun entry he => layoutItem_layout _ entry.1 (hdepth entry he)] at hsitemap
  exact load?_running (d + 1) hpaths hentries hsitemap

/-- **What the running part computes is in lockstep with the route table.** -/
theorem inLockstep_of_accepted {spec : Spec} (h : spec.Accepted) :
    InLockstep spec (.assembled (layoutPaths spec.layouts)) (.array (layoutEntries spec))
      (listMarkup (layoutItems spec)) where
  paths := by
    have heq := Value.assembled_eq_plain (keys_layoutPaths spec.layouts)
    rw [layoutPaths_eq_iff, keys_paths] at heq
    exact heq
  elements := ⟨_, rfl, List.forall₂_map_left_iff.mpr (List.forall₂_map_right_iff.mpr
    (List.forall₂_same.mpr fun _ he => showsLayout (elements_ofSpec h he).1))⟩
  sitemap := ⟨_, rfl, List.forall₂_map_left_iff.mpr (List.forall₂_map_right_iff.mpr
    (List.forall₂_same.mpr fun entry _ => showsSection entry.1 entry.2))⟩

/-- **The running part and the route table are in lockstep**, but for `__proto__` as a key: its text is that of a
    script which, loaded with the object of the routes, computes the routing entries and the sitemap of the route table,
    and its path table exactly if no key is `__proto__`. -/
theorem lockstep {defaults : Defaults} {document : Document} {spec : Spec}
    (h : Spec.validate defaults document = .ok spec) :
    (∀ iconPackage, tokens (Parts.ofSpec iconPackage spec).runtime = running.tokens) ∧
    ∃ paths elements sitemap,
      (∀ depth, spec.viewCount + 3 ≤ depth → running.load? depth [("routes", routesObject spec)] =
        some [("sitemap", sitemap), ("routeComponents", elements), ("paths", paths),
          ("routes", routesObject spec)]) ∧
      InLockstep spec paths elements sitemap := by
  have ha := Spec.accepted_of_validate h
  exact ⟨fun _ => tokens_runtimeText, _, _, _, fun _ hd => load?_routes ha hd, inLockstep_of_accepted ha⟩

/-- A view below another with a slash on both sides of the seam, an empty mapping of views and a layout without
    views. -/
theorem nested_views_in_lockstep : ∃ spec paths elements sitemap,
    Spec.validate .standard (.map [
      ("home", .map [("path", .text "/"), ("routes", .map [
        ("users", .map [("path", .text "/users/"), ("routes", .map [("detail", .map [("path", .text "/:id")])])]),
        ("empty", .map [("routes", .map [])])])]),
      ("admin", .map [("path", .text "/admin")])]) = .ok spec ∧
    running.load? 6 [("routes", routesObject spec)] = some [("sitemap", sitemap), ("routeComponents", elements),
      ("paths", paths), ("routes", routesObject spec)] ∧
    InLockstep spec paths elements sitemap ∧
    paths = .plain [
      ("home", .plain [("users", .plain [("detail", .text "/users/:id")]), ("empty", .plain [])]),
      ("admin", .text "/admin")] := by
  have h : Spec.validate .standard (.map [
      ("home", .map [("path", .text "/"), ("routes", .map [
        ("users", .map [("path", .text "/users/"), ("routes", .map [("detail", .map [("path", .text "/:id")])])]),
        ("empty", .map [("routes", .map [])])])]),
      ("admin", .map [("path", .text "/admin")])]) = .ok _ := rfl
  obtain ⟨-, paths, elements, sitemap, hload, hlockstep⟩ := lockstep h
  have hnames := hlockstep.paths.mpr (by decide)
  exact ⟨_, paths, elements, sitemap, h, hload 6 (by decide), hlockstep, hnames⟩

/-- The path table of the running part loses a layout whose key is `__proto__`. -/
theorem proto_layout_lost : ∃ spec frame,
    Spec.validate .standard (.map [("__proto__", .map [("path", .text "/p")])]) = .ok spec ∧
    (∀ depth, running.load? (depth + 3) [("routes", routesObject spec)] = some frame) ∧
    Keyed.get? frame "paths" = some (.plain []) ∧
    tableMembers (RouteTable.build spec (Bindings.ofSpec spec)).paths = [("__proto__", .text "/p")] :=
  ⟨_, _, rfl, fun _ => rfl, rfl, rfl⟩

end RouteScaffold.RoutingModule
