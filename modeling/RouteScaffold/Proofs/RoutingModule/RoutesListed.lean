import RouteScaffold.Proofs.RoutingModule.Lockstep
import RouteScaffold.Proofs.RoutingModule.ReadBack
import RouteScaffold.Proofs.Script.ObjectLiteral

/-!
# What the literal of the routes lists

The statement of the routes is read, and its literal made by the rules for object literals (`evaluated?`). Going through
the object that comes of it, one meets at every level the keys of the specification in its order, but for `__proto__`:
under this key a literal makes no member, and what stands under it is lost (`routes_listed`).

* `Spec.kept`: a specification without what stands under `__proto__`;
* `Lists`: going through an object and the objects below it, one meets the nodes of a specification.
-/

namespace RouteScaffold

/-! ## 1. What a literal can hold -/

/-- The views that are not under `__proto__`, at all depths. -/
def Views.kept : Views → Views
  | .nil => .nil
  | .leaf key info rest => if key = "__proto__" then rest.kept else .leaf key info rest.kept
  | .container key info children rest =>
    if key = "__proto__" then rest.kept else .container key info children.kept rest.kept

/-- The layout with the views that are not under `__proto__`. -/
def Layout.kept (layout : Layout) : Layout := { layout with children := layout.children.map Views.kept }

/-- The specification without what stands under `__proto__`. -/
def Spec.kept (spec : Spec) : Spec :=
  ⟨(spec.layouts.filter fun entry => entry.1 ≠ "__proto__").map fun entry => (entry.1, entry.2.kept)⟩

/-- The keys of all nodes, at all depths. -/
def Spec.allKeys (spec : Spec) : List String := spec.layouts.flatMap fun entry => entry.1 :: entry.2.views.keys

theorem Views.kept_eq {views : Views} (h : "__proto__" ∉ views.keys) : views.kept = views := by
  induction views with
  | nil => rfl
  | leaf key info rest ih =>
      obtain ⟨hkey, hrest⟩ := not_or.mp fun hm => h (List.mem_cons.mpr hm)
      rw [kept, if_neg (Ne.symm hkey), ih hrest]
  | container key info children rest ihc ih =>
      rw [keys_container, List.mem_cons, List.mem_append, not_or, not_or] at h
      rw [kept, if_neg (Ne.symm h.1), ihc h.2.1, ih h.2.2]

theorem Views.not_mem_keys_kept (views : Views) : "__proto__" ∉ views.kept.keys := by
  induction views with
  | nil => exact List.not_mem_nil
  | leaf key info rest ih =>
      rw [kept]
      split
      · exact ih
      · next hkey =>
        exact fun hm => (List.mem_cons.mp hm).elim (fun e => hkey e.symm) ih
  | container key info children rest ihc ih =>
      rw [kept]
      split
      · exact ih
      · next hkey =>
        rw [keys_container, List.mem_cons, List.mem_append, not_or, not_or]
        exact ⟨fun e => hkey e.symm, ihc, ih⟩

theorem Layout.views_kept (layout : Layout) : layout.kept.views = layout.views.kept := by
  unfold views kept
  cases layout.children <;> rfl

theorem Spec.not_mem_allKeys {spec : Spec} : "__proto__" ∉ spec.allKeys ↔
    "__proto__" ∉ spec.layouts.keys ∧ ∀ entry ∈ spec.layouts, "__proto__" ∉ entry.2.views.keys := by
  unfold allKeys Keyed.keys
  simp only [List.mem_flatMap, List.mem_map, List.mem_cons, not_exists, not_and, not_or]
  exact ⟨fun h => ⟨fun e he hk => (h e he).1 hk.symm, fun e he => (h e he).2⟩,
    fun h e he => ⟨fun hk => h.1 e he hk.symm, h.2 e he⟩⟩

theorem Spec.kept_eq {spec : Spec} (h : "__proto__" ∉ spec.allKeys) : spec.kept = spec := by
  obtain ⟨hkeys, hviews⟩ := not_mem_allKeys.mp h
  have hall : spec.layouts.filter (fun entry => entry.1 ≠ "__proto__") = spec.layouts := by
    refine List.filter_eq_self.mpr fun entry he => decide_eq_true fun hk => hkeys ?_
    exact hk ▸ List.mem_map_of_mem (f := Prod.fst) he
  have hkept : ∀ entry ∈ spec.layouts, (entry.1, entry.2.kept) = entry := by
    rintro ⟨key, layout⟩ he
    have hl := hviews _ he
    unfold Layout.kept
    cases hc : layout.children with
    | none =>
        rw [Option.map_none, ← hc]
    | some views =>
        rw [layout.views_some hc] at hl
        rw [Option.map_some, Views.kept_eq hl, ← hc]
  unfold kept
  rw [hall, List.map_congr_left hkept, List.map_id']

theorem Spec.not_mem_allKeys_kept (spec : Spec) : "__proto__" ∉ spec.kept.allKeys := by
  refine not_mem_allKeys.mpr ⟨fun hm => ?_, fun entry he => ?_⟩
  · obtain ⟨entry, he, hk⟩ := List.mem_map.mp hm
    obtain ⟨given, hg, rfl⟩ := List.mem_map.mp he
    exact of_decide_eq_true (List.mem_filter.mp hg).2 hk
  · obtain ⟨entry, -, rfl⟩ := List.mem_map.mp he
    rw [Layout.views_kept]
    exact entry.2.views.not_mem_keys_kept

namespace RoutingModule

open Script

/-! ## 2. Going through an object -/

/-- The members that are met below a route. -/
def below? (route : Value) : Option Members := (route.member? "routes").bind Value.listed?

theorem below?_missing {route : Value} (h : route.member? "routes" = some .missing) : below? route = none := by
  rw [below?, h]
  rfl

/-- Members that are met one after the other stand for views side by side: each under its key, and below a container
    its views are met. -/
def ListsViews : Views → Members → Prop
  | .nil, met => met = []
  | .leaf key _ rest, met =>
    ∃ route more, met = (key, route) :: more ∧ route.member? "routes" = some .missing ∧ ListsViews rest more
  | .container key _ children rest, met =>
    ∃ route more below, met = (key, route) :: more ∧ below? route = some below ∧ ListsViews children below ∧
      ListsViews rest more

/-- Below the route of a layout its views are met. -/
def ListsLayout (layout : Layout) (route : Value) : Prop :=
  match layout.children with
  | none => route.member? "routes" = some .missing
  | some views => ∃ below, below? route = some below ∧ ListsViews views below

/-- **Going through an object one meets the nodes of a specification**, at every level its keys in its order. -/
def Lists (spec : Spec) (object : Value) : Prop :=
  ∃ met, object.listed? = some met ∧
    List.Forall₂ (fun entry m => m.1 = entry.1 ∧ ListsLayout entry.2 m.2) spec.layouts met

/-- What is met determines the keys of views. -/
theorem ListsViews.keys_eq {a b : Views} {met : Members} (ha : ListsViews a met) (hb : ListsViews b met) :
    a.keys = b.keys := by
  induction a generalizing b met with
  | nil =>
      cases ha
      cases b with
      | nil => rfl
      | leaf => obtain ⟨_, _, hmet, -⟩ := hb; cases hmet
      | container => obtain ⟨_, _, _, hmet, -⟩ := hb; cases hmet
  | leaf key info rest ih =>
      obtain ⟨route, more, rfl, hroute, hrest⟩ := ha
      cases b with
      | nil => cases hb
      | leaf =>
          obtain ⟨_, _, hmet, -, hrest'⟩ := hb
          cases hmet
          exact congrArg (key :: ·) (ih hrest hrest')
      | container =>
          obtain ⟨_, _, _, hmet, hbelow, -⟩ := hb
          cases hmet
          cases (below?_missing hroute).symm.trans hbelow
  | container key info children rest ihc ih =>
      obtain ⟨route, more, below, rfl, hbelow, hchildren, hrest⟩ := ha
      cases b with
      | nil => cases hb
      | leaf =>
          obtain ⟨_, _, hmet, hroute, -⟩ := hb
          cases hmet
          cases (below?_missing hroute).symm.trans hbelow
      | container =>
          obtain ⟨_, _, _, hmet, hbelow', hchildren', hrest'⟩ := hb
          cases hmet
          cases hbelow.symm.trans hbelow'
          rw [Views.keys_container, Views.keys_container, ihc hchildren hchildren', ih hrest hrest']

theorem ListsLayout.keys_eq {a b : Layout} {route : Value} (ha : ListsLayout a route) (hb : ListsLayout b route) :
    a.views.keys = b.views.keys := by
  unfold ListsLayout at ha hb
  cases hca : a.children with
  | none =>
      rw [hca] at ha
      cases hcb : b.children with
      | none => rw [a.views_none hca, b.views_none hcb]
      | some views =>
          rw [hcb] at hb
          obtain ⟨below, hbelow, -⟩ := hb
          cases (below?_missing ha).symm.trans hbelow
  | some views =>
      rw [hca] at ha
      obtain ⟨below, hbelow, hviews⟩ := ha
      cases hcb : b.children with
      | none =>
          rw [hcb] at hb
          cases (below?_missing hb).symm.trans hbelow
      | some others =>
          rw [hcb] at hb
          obtain ⟨below', hbelow', hothers⟩ := hb
          cases hbelow.symm.trans hbelow'
          rw [a.views_some hca, b.views_some hcb]
          exact hviews.keys_eq hothers

/-- **What is met determines the keys of a specification.** -/
theorem Lists.allKeys_eq {a b : Spec} {object : Value} (ha : Lists a object) (hb : Lists b object) :
    a.allKeys = b.allKeys := by
  obtain ⟨met, hmet, ha⟩ := ha
  obtain ⟨met', hmet', hb⟩ := hb
  cases hmet.symm.trans hmet'
  have hkeys : ∀ {a b : Keyed Layout},
      List.Forall₂ (fun entry m => m.1 = entry.1 ∧ ListsLayout entry.2 m.2) a met →
      List.Forall₂ (fun entry m => m.1 = entry.1 ∧ ListsLayout entry.2 m.2) b met →
      Spec.allKeys ⟨a⟩ = Spec.allKeys ⟨b⟩ := by
    clear hmet hmet' ha hb
    intro a b ha hb
    unfold Spec.allKeys
    induction ha generalizing b with
    | nil =>
        cases hb
        rfl
    | cons hfirst _ ih =>
        cases hb with
        | cons hfirst' hrest =>
            rw [List.flatMap_cons, List.flatMap_cons, ih hrest, ← hfirst.1, hfirst'.1, hfirst.2.keys_eq hfirst'.2]
  exact hkeys ha hb

/-! ## 3. What the literal makes -/

/-- What the statement of the routes makes. -/
def evaluated? (statement : String) : Option Value :=
  (readStatements [] (tokens statement)).bind fun contents => (Value.plain contents.routes).made?

/-- The statement of the routes. -/
def Parts.statement (p : Parts) : String := "const routes = " ++ p.routes ++ ";"

/-- The statement of the routes stands in the text of the module, ahead of the running part. -/
theorem Parts.text_statement (p : Parts) :
    ∃ before, p.text = Text.unlines (before ++ [p.statement, "", p.runtime]) := by
  refine ⟨["import \x7b Route \x7d from \"react-router-dom\";"] ++ p.iconLines ++ ["", "// Layouts"] ++
    p.layouts.map importLine ++ p.viewGroups.flatMap ViewImports.lines ++ [""], ?_⟩
  rw [Parts.text, List.append_assoc _ [""]]
  rfl

/-- The members that a literal makes for views side by side. -/
def madeMembers (bindings : Bindings) (layout : String) : Views → Members
  | .nil => []
  | .leaf key info rest =>
    (key, .plain (nodeMembers info.path (elementOf bindings layout key) info.title ++
      [("icon", .component info.icon)])) :: madeMembers bindings layout rest
  | .container key info children rest =>
    (key, .plain (nodeMembers info.path (elementOf bindings layout key) info.title ++
      [("icon", .component info.icon), ("routes", .assembled (madeMembers bindings layout children))])) ::
        madeMembers bindings layout rest

/-- The members that a literal makes for a layout. -/
def madeLayout (bindings : Bindings) (key : String) (layout : Layout) : Members :=
  nodeMembers layout.path (layoutElementOf bindings key) layout.title ++
    (layout.icon.map fun icon => ("icon", Value.component icon)).toList ++
    (layout.children.map fun views => ("routes", Value.assembled (madeMembers bindings key views))).toList

/-- The members that the literal makes for the layouts. -/
def madeLayouts (spec : Spec) (bindings : Bindings) : Members :=
  spec.layouts.map fun (key, layout) => (key, .plain (madeLayout bindings key layout))

/-- The object that the literal of a specification makes. -/
def madeObject (spec : Spec) : Value := .assembled (madeLayouts spec (Bindings.ofSpec spec))

section Made

variable (bindings : Bindings) (layout : String)

theorem keys_madeLayouts (spec : Spec) : Keyed.keys (madeLayouts spec bindings) = spec.layouts.keys := List.map_map

theorem sublist_madeMembers (views : Views) :
    (Keyed.keys (madeMembers bindings layout views)).Sublist views.keys := by
  induction views with
  | nil => exact List.Sublist.refl _
  | leaf key info rest ih => exact ih.cons_cons key
  | container key info children rest _ ih =>
      rw [Views.keys_container]
      exact (ih.trans (List.sublist_append_right _ _)).cons_cons key

/-- A node with an object of nodes below it is made with what is made of that. -/
theorem made?_node (path element title : String) (icon : Option String) {below made : Value}
    (h : below.made? = some made) :
    (Value.plain (nodeMembers path element title ++ (icon.map fun icon => ("icon", Value.component icon)).toList ++
        [("routes", below)])).made? =
      some (.plain (nodeMembers path element title ++
        (icon.map fun icon => ("icon", Value.component icon)).toList ++ [("routes", made)])) := by
  have hroutes : Value.madeAll? [("routes", below)] = some [("routes", made)] := Value.madeAll?_cons h rfl
  rw [Value.made?_plain]
  cases icon with
  | none =>
      have hall : Value.madeAll? (nodeMembers path element title ++ [("routes", below)]) =
          some (nodeMembers path element title ++ [("routes", made)]) :=
        Value.madeAll?_cons rfl (Value.madeAll?_cons rfl (Value.madeAll?_cons rfl hroutes))
      rw [Option.map_none, Option.toList_none, List.append_nil, hall]
      rfl
  | some icon =>
      have hall : Value.madeAll? (nodeMembers path element title ++ [("icon", .component icon)] ++
            [("routes", below)]) =
          some (nodeMembers path element title ++ [("icon", .component icon)] ++ [("routes", made)]) :=
        Value.madeAll?_cons rfl (Value.madeAll?_cons rfl (Value.madeAll?_cons rfl (Value.madeAll?_cons rfl hroutes)))
      rw [Option.map_some, Option.toList_some, hall]
      rfl

/-- **The literal makes the members of views.** -/
theorem madeAll?_viewMembers {views : Views} (hn : views.keys.Nodup) :
    Value.madeAll? (viewMembers bindings layout views) = some (madeMembers bindings layout views) := by
  induction views with
  | nil => rfl
  | leaf key info rest ih => exact Value.madeAll?_cons rfl (ih (List.nodup_cons.mp hn).2)
  | container key info children rest ihc ih =>
      rw [Views.keys_container] at hn
      obtain ⟨hchildren, hrest, -⟩ := List.nodup_append.mp (List.nodup_cons.mp hn).2
      have hnames := (sublist_madeMembers bindings layout children).nodup hchildren
      have hbelow := Value.made?_plain_eq (ihc hchildren) hnames
      exact Value.madeAll?_cons (made?_node _ _ _ (some info.icon) hbelow) (ih hrest)

theorem made?_layout {key : String} {layout : Layout} (hn : layout.views.keys.Nodup) :
    (Value.plain (layoutMembers bindings key layout)).made? = some (.plain (madeLayout bindings key layout)) := by
  unfold layoutMembers madeLayout
  cases hc : layout.children with
  | none => cases layout.icon <;> rfl
  | some views =>
      rw [layout.views_some hc] at hn
      have hbelow := Value.made?_plain_eq (madeAll?_viewMembers bindings key hn)
        ((sublist_madeMembers bindings key views).nodup hn)
      exact made?_node _ _ _ layout.icon hbelow

theorem madeAll?_layouts {layouts : Keyed Layout} (hn : ∀ entry ∈ layouts, entry.2.views.keys.Nodup) :
    Value.madeAll? (routesMembers ⟨layouts⟩ bindings) = some (madeLayouts ⟨layouts⟩ bindings) := by
  induction layouts with
  | nil => rfl
  | cons entry rest ih =>
      rw [List.forall_mem_cons] at hn
      exact Value.madeAll?_cons (made?_layout bindings hn.1) (ih hn.2)

end Made

/-- **The statement of the routes makes the object of the members it makes**, for every accepted specification. -/
theorem evaluated?_statement {spec : Spec} (h : spec.Accepted) (iconPackage : String) :
    evaluated? (Parts.ofSpec iconPackage spec).statement = some (madeObject spec) := by
  have hread := readStatements_routes h [] []
  have hstatement : (Parts.ofSpec iconPackage spec).statement =
      "const routes = " ++ literal spec (Bindings.ofSpec spec) ++ ";" := rfl
  rw [List.append_nil] at hread
  rw [evaluated?, hstatement, hread, Option.bind_some]
  refine Value.made?_plain_eq (madeAll?_layouts _ fun entry he => (h.layouts entry he).nodup_keys) ?_
  rw [keys_madeLayouts]
  exact h.nodup_keys

/-! ## 4. What is met -/

/-- Of members that are assembled one meets all but the one that is no member. -/
theorem listed?_assembled {members : Members} (h : ∀ name ∈ Keyed.keys members, Name.Fragment name) :
    (Value.assembled members).listed? = some (members.filter fun m => m.1 ≠ "__proto__") := by
  refine Value.listed?_eq_entries? (fun m hm => index?_fragment (h m.1 ?_)) _
  exact List.mem_map_of_mem (f := Prod.fst) (List.mem_filter.mp hm).1

/-- Below a node one meets what its object of nodes lists. -/
theorem below?_node (path element title : String) (icon : Option String) (below : Value) :
    below? (.plain (nodeMembers path element title ++ (icon.map fun icon => ("icon", Value.component icon)).toList ++
      [("routes", below)])) = below.listed? := by
  cases icon <;> rfl

/-- **One meets the views that are not under `__proto__`.** -/
theorem listsViews_kept (bindings : Bindings) (layout : String) {views : Views}
    (h : ∀ key ∈ views.keys, Name.Fragment key) :
    ListsViews views.kept ((madeMembers bindings layout views).filter fun m => m.1 ≠ "__proto__") := by
  induction views with
  | nil => rfl
  | leaf key info rest ih =>
      have hrest := ih fun k hk => h k (List.mem_cons_of_mem _ hk)
      rw [Views.kept, madeMembers]
      by_cases hkey : key = "__proto__"
      · rw [if_pos hkey, List.filter_cons_of_neg (by simp [hkey])]
        exact hrest
      · rw [if_neg hkey, List.filter_cons_of_pos (by simp [hkey])]
        exact ⟨_, _, rfl, rfl, hrest⟩
  | container key info children rest ihc ih =>
      rw [Views.keys_container, List.forall_mem_cons, List.forall_mem_append] at h
      rw [Views.kept, madeMembers]
      by_cases hkey : key = "__proto__"
      · rw [if_pos hkey, List.filter_cons_of_neg (by simp [hkey])]
        exact ih h.2.2
      · rw [if_neg hkey, List.filter_cons_of_pos (by simp [hkey])]
        have hnames := fun k hk => h.2.1 k ((sublist_madeMembers bindings layout children).subset hk)
        have hbelow := (below?_node info.path (elementOf bindings layout key) info.title (some info.icon) _).trans
          (listed?_assembled hnames)
        exact ⟨_, _, _, rfl, hbelow, ihc h.2.1, ih h.2.2⟩

theorem listsLayout_kept (bindings : Bindings) (key : String) {layout : Layout}
    (h : ∀ key ∈ layout.views.keys, Name.Fragment key) :
    ListsLayout layout.kept (.plain (madeLayout bindings key layout)) := by
  unfold ListsLayout Layout.kept madeLayout
  cases hc : layout.children with
  | none => cases layout.icon <;> rfl
  | some views =>
      rw [layout.views_some hc] at h
      have hnames := fun k hk => h k ((sublist_madeMembers bindings key views).subset hk)
      have hbelow := (below?_node layout.path (layoutElementOf bindings key) layout.title layout.icon _).trans
        (listed?_assembled hnames)
      exact ⟨_, hbelow, listsViews_kept bindings key h⟩

/-- **Going through the object that the literal makes, one meets what is not under `__proto__`.** -/
theorem lists_kept {spec : Spec} (h : spec.Accepted) : Lists spec.kept (madeObject spec) := by
  have hnames : ∀ name ∈ Keyed.keys (madeLayouts spec (Bindings.ofSpec spec)), Name.Fragment name := by
    rw [keys_madeLayouts]
    exact h.keys
  have hfilter : (madeLayouts spec (Bindings.ofSpec spec)).filter (fun m => m.1 ≠ "__proto__") =
      (spec.layouts.filter fun entry => entry.1 ≠ "__proto__").map fun (key, layout) =>
        (key, .plain (madeLayout (Bindings.ofSpec spec) key layout)) := List.filter_map
  refine ⟨_, listed?_assembled hnames, ?_⟩
  rw [hfilter]
  refine List.forall₂_map_left_iff.mpr (List.forall₂_map_right_iff.mpr (List.forall₂_same.mpr fun entry he => ?_))
  exact ⟨rfl, listsLayout_kept _ _ (h.layouts entry (List.mem_filter.mp he).1).viewKeys⟩

/-- One meets all nodes exactly if no key is `__proto__`. -/
theorem lists_iff {spec : Spec} (h : spec.Accepted) : Lists spec (madeObject spec) ↔ "__proto__" ∉ spec.allKeys := by
  constructor
  · intro hall
    rw [hall.allKeys_eq (lists_kept h)]
    exact spec.not_mem_allKeys_kept
  · intro hkeys
    have hkept := lists_kept h
    rwa [Spec.kept_eq hkeys] at hkept

/-! ## 5. Without `__proto__` -/

theorem madeMembers_eq (bindings : Bindings) (layout : String) {views : Views} (h : "__proto__" ∉ views.keys) :
    madeMembers bindings layout views = viewMembers bindings layout views := by
  induction views with
  | nil => rfl
  | leaf key info rest ih =>
      rw [madeMembers, viewMembers, ih fun hm => h (List.mem_cons_of_mem _ hm)]
  | container key info children rest ihc ih =>
      rw [Views.keys_container, List.mem_cons, List.mem_append, not_or, not_or] at h
      have hnames := fun hm => h.2.1 ((sublist_madeMembers bindings layout children).subset hm)
      rw [madeMembers, viewMembers, Value.assembled_of_not_mem hnames, ihc h.2.1, ih h.2.2]

theorem madeLayout_eq (bindings : Bindings) (key : String) {layout : Layout} (h : "__proto__" ∉ layout.views.keys) :
    madeLayout bindings key layout = layoutMembers bindings key layout := by
  unfold madeLayout layoutMembers
  cases hc : layout.children with
  | none => rfl
  | some views =>
      rw [layout.views_some hc] at h
      have hnames := fun hm => h ((sublist_madeMembers bindings key views).subset hm)
      rw [Option.map_some, Option.map_some, Value.assembled_of_not_mem hnames, madeMembers_eq bindings key h]

/-- **Without `__proto__` the literal makes the object of the routes.** -/
theorem madeObject_eq {spec : Spec} (h : "__proto__" ∉ spec.allKeys) : madeObject spec = routesObject spec := by
  obtain ⟨hkeys, hviews⟩ := Spec.not_mem_allKeys.mp h
  have hmembers : madeLayouts spec (Bindings.ofSpec spec) = routesMembers spec (Bindings.ofSpec spec) :=
    List.map_congr_left fun entry he => congrArg (fun members => (entry.1, Value.plain members))
      (madeLayout_eq _ _ (hviews entry he))
  rw [← keys_madeLayouts (Bindings.ofSpec spec)] at hkeys
  rw [madeObject, Value.assembled_of_not_mem hkeys, hmembers, routesObject]

/-! ## 6. What the running part goes through -/

/-- **Going through the object of the emitted literal, one meets the keys of the specification in its order, but for
    `__proto__`**: at every level the object lists what does not stand under this key, and so the whole specification
    exactly if no key is `__proto__`. Then it is the object of the routes for which the running part computes what is in
    lockstep with the route table. -/
theorem routes_listed {defaults : Defaults} {document : Document} {spec : Spec}
    (h : Spec.validate defaults document = .ok spec) :
    ∃ object,
      (∀ iconPackage, (∃ before, (Parts.ofSpec iconPackage spec).text = Text.unlines
          (before ++ [(Parts.ofSpec iconPackage spec).statement, "", (Parts.ofSpec iconPackage spec).runtime])) ∧
        evaluated? (Parts.ofSpec iconPackage spec).statement = some object) ∧
      Lists spec.kept object ∧
      (Lists spec object ↔ "__proto__" ∉ spec.allKeys) ∧
      ("__proto__" ∉ spec.allKeys → ∃ paths elements sitemap,
        (∀ depth, spec.viewCount + 3 ≤ depth → running.load? depth [("routes", object)] =
          some [("sitemap", sitemap), ("routeComponents", elements), ("paths", paths), ("routes", object)]) ∧
        InLockstep spec paths elements sitemap) := by
  have ha := Spec.accepted_of_validate h
  refine ⟨madeObject spec, fun _ => ⟨Parts.text_statement _, evaluated?_statement ha _⟩, lists_kept ha, lists_iff ha,
    fun hkeys => ?_⟩
  rw [madeObject_eq hkeys]
  exact ⟨_, _, _, fun _ hd => load?_routes ha hd, inLockstep_of_accepted ha⟩

/-- Keys that are not in the order of the alphabet, views below a view and an empty mapping of views. -/
theorem unsorted_routes_listed : ∃ spec object,
    Spec.validate .standard (.map [
      ("zeta", .map [("routes", .map [
        ("list", .map [("routes", .map [("b1", .map []), ("a10", .map []), ("a9", .map [])])]),
        ("constructor", .map [("routes", .map [])])])]),
      ("alpha", .map [])]) = .ok spec ∧
    evaluated? (Parts.ofSpec standardIconPackage spec).statement = some object ∧ Lists spec object ∧
    spec.allKeys = ["zeta", "list", "b1", "a10", "a9", "constructor", "alpha"] := by
  have h : Spec.validate .standard (.map [
      ("zeta", .map [("routes", .map [
        ("list", .map [("routes", .map [("b1", .map []), ("a10", .map []), ("a9", .map [])])]),
        ("constructor", .map [("routes", .map [])])])]),
      ("alpha", .map [])]) = .ok _ := rfl
  obtain ⟨object, hevaluated, -, hlists, -⟩ := routes_listed h
  exact ⟨_, object, h, (hevaluated standardIconPackage).2, hlists.mpr (by decide), rfl⟩

/-- A layout under `__proto__` is not met, and the running part makes nothing of it. -/
theorem proto_layout_not_listed : ∃ spec object,
    Spec.validate .standard (.map [("__proto__", .map [("path", .text "/p")])]) = .ok spec ∧
    spec.layouts.keys = ["__proto__"] ∧
    evaluated? (Parts.ofSpec standardIconPackage spec).statement = some object ∧
    object.listed? = some [] ∧ ¬ Lists spec object ∧
    ∀ depth, running.load? (depth + 3) [("routes", object)] = some [("sitemap", listMarkup []),
      ("routeComponents", .array []), ("paths", .plain []), ("routes", object)] := by
  have h : Spec.validate .standard (.map [("__proto__", .map [("path", .text "/p")])]) = .ok _ := rfl
  have ha := Spec.accepted_of_validate h
  exact ⟨_, _, h, rfl, evaluated?_statement ha standardIconPackage, rfl,
    fun hall => (lists_iff ha).mp hall (by decide), fun _ => rfl⟩

end RoutingModule
end RouteScaffold
