import RouteScaffold.Proofs.RoutingModule.Nodes
import RouteScaffold.Proofs.RoutingModule.ReadBack

/-!
# The routing module is closed

What the routing module of an accepted specification refers to it imports, and what it imports it refers to
(`Contents.Closed`): the component of every node is the name of the node's own import, every icon of a node is in the
list of the icons, and there is no import beyond these. What can go wrong is read off the icons: the name of an import
is brought in a second time exactly if it is the name of an icon as well. Main statement: `closed_up_to_icons`.
-/

namespace RouteScaffold

/-! ## 1. The imports of a table -/

namespace Bindings

/-- The imports of a table: those of the layouts, and behind them those of the views. -/
def imports (table : Bindings) : List Import :=
  table.values.map LayoutImports.layout ++ table.values.flatMap fun l => l.views.values

/-- The import of the node that keys lead to. -/
def own? (table : Bindings) : List String → Option Import
  | [] => none
  | [key] => table.layout? key
  | key :: next :: more => table.view? key ((next :: more).getLast (List.cons_ne_nil next more))

/-- Where the component of the node is that keys lead to, seen from the routing module. -/
def ownSource : List String → String
  | [] => ""
  | [key] => (layoutImport key).source
  | key :: next :: more => viewSource key ((next :: more).getLast (List.cons_ne_nil next more))

theorem names_imports (table : Bindings) :
    (imports table).map Import.binding = layoutNames table ++ viewNames table := by
  rw [imports, List.map_append, List.map_map, List.map_flatMap]
  rfl

theorem own?_view (table : Bindings) (layout : String) (more : List String) (key : String) :
    table.own? (layout :: (more ++ [key])) = table.view? layout key := by
  cases more with
  | nil => rfl
  | cons next rest => simp [own?]

theorem ownSource_view (layout : String) (more : List String) (key : String) :
    ownSource (layout :: (more ++ [key])) = viewSource layout key := by
  cases more with
  | nil => rfl
  | cons next rest => simp [ownSource]

section Accepted

variable {spec : Spec} (h : spec.Accepted) {key : String} {layout : Layout} (hl : (key, layout) ∈ spec.layouts)

include h hl

/-- **A layout has an import of its own**, whose name is its component. -/
theorem own_layout : ∃ i ∈ imports (ofSpec spec), (ofSpec spec).own? [key] = some i ∧ i.source = ownSource [key] ∧
    RoutingModule.layoutElementOf (ofSpec spec) key = i.binding := by
  obtain ⟨l, he, -⟩ := RoutingModule.exists_imports h hl
  have hfound := (RoutingModule.found_ofSpec h he).1
  have hnamed := (RoutingModule.named_ofSpec h _ he).layout
  have hsource : l.layout.source = (layoutImport key).source := by
    rw [ofSpec_eq h] at he
    obtain ⟨_, _, -, rfl⟩ := mem_tableOf he
    rfl
  refine ⟨l.layout, List.mem_append_left _ ?_, hfound, hsource, hnamed⟩
  exact List.mem_map_of_mem (List.mem_map_of_mem (f := Prod.snd) he)

/-- **A view has an import of its own**, whose name is its component. -/
theorem own_view {k : String} (hk : k ∈ layout.views.keys) : ∃ i ∈ imports (ofSpec spec),
    (ofSpec spec).view? key k = some i ∧ i.source = viewSource key k ∧
      RoutingModule.elementOf (ofSpec spec) key k = i.binding := by
  obtain ⟨l, he, hkeys⟩ := RoutingModule.exists_imports h hl
  rw [← hkeys] at hk
  obtain ⟨view, hv, rfl⟩ := List.mem_map.mp hk
  have hfound := (RoutingModule.found_ofSpec h he).2 view hv
  have hnamed := (RoutingModule.named_ofSpec h _ he).views view hv
  have hsource : view.2.source = viewSource key view.1 := by
    rw [ofSpec_eq h] at he
    obtain ⟨_, _, -, rfl⟩ := mem_tableOf he
    exact source_of_mem hv
  refine ⟨view.2, List.mem_append_right _ ?_, hfound, hsource, hnamed⟩
  exact List.mem_flatMap.mpr ⟨l, List.mem_map_of_mem (f := Prod.snd) he, List.mem_map_of_mem hv⟩

end Accepted

/-- **Every import is that of a layout or of a view.** -/
theorem mem_imports {spec : Spec} (h : spec.Accepted) {i : Import} (hi : i ∈ imports (ofSpec spec)) :
    ∃ key layout, (key, layout) ∈ spec.layouts ∧ ((ofSpec spec).layout? key = some i ∨
      ∃ k ∈ layout.views.keys, (ofSpec spec).view? key k = some i) := by
  have hlayout : ∀ {entry : String × LayoutImports}, entry ∈ ofSpec spec →
      ∃ layout, (entry.1, layout) ∈ spec.layouts ∧ entry.2.views.keys = layout.views.keys := by
    intro entry he
    rw [ofSpec_eq h] at he
    obtain ⟨layout, before, hl, he⟩ := mem_tableOf he
    rw [he]
    exact ⟨layout, hl, keys_importsOf entry.1 layout.views.nodes before⟩
  rcases List.mem_append.mp hi with hi | hi
  · obtain ⟨l, hm, rfl⟩ := List.mem_map.mp hi
    obtain ⟨entry, he, rfl⟩ := List.mem_map.mp hm
    obtain ⟨layout, hl, -⟩ := hlayout he
    exact ⟨entry.1, layout, hl, .inl (RoutingModule.found_ofSpec h he).1⟩
  · obtain ⟨l, hm, hi⟩ := List.mem_flatMap.mp hi
    obtain ⟨entry, he, rfl⟩ := List.mem_map.mp hm
    obtain ⟨layout, hl, hkeys⟩ := hlayout he
    obtain ⟨view, hv, rfl⟩ := List.mem_map.mp hi
    have hk : view.1 ∈ layout.views.keys := by
      rw [← hkeys]
      exact List.mem_map_of_mem (f := Prod.fst) hv
    exact ⟨entry.1, layout, hl, .inr ⟨view.1, hk, (RoutingModule.found_ofSpec h he).2 view hv⟩⟩

end Bindings

namespace RoutingModule

open Script

/-! ## 2. What is imported -/

/-- The names that a statement brings in. -/
def ImportStatement.names : ImportStatement → List String
  | .named names _ => names
  | .whole i => [i.binding]

namespace Contents

/-- The import statements in order. -/
def imports (c : Contents) : List ImportStatement := c.sections.values.flatten

/-- The names that are brought in, each as often as it is. -/
def imported (c : Contents) : List String := c.imports.flatMap ImportStatement.names

/-- The icons that are brought in. -/
def icons (c : Contents) : List String := (c.under " Icons").flatMap ImportStatement.names

end Contents

/-- The sections of the views hold the imports of the views. -/
theorem flatten_viewGroups (table : Bindings) : (Keyed.values ((viewGroups table).map ViewImports.section)).flatten =
    (table.values.flatMap fun l => l.views.values).map ImportStatement.whole := by
  induction table with
  | nil => rfl
  | cons entry rest ih =>
      obtain ⟨key, l⟩ := entry
      have hcons : Keyed.values ((key, l) :: rest) = l :: Keyed.values rest := rfl
      rw [viewGroups_cons, hcons, List.flatMap_cons, List.map_append, ← ih]
      by_cases hv : l.views = []
      · rw [if_pos hv, hv]
        rfl
      · rw [if_neg hv]
        rfl

section Sections

variable (iconPackage : String) (spec : Spec) (routes : Members)

theorem imports_sectionsOf : (Contents.mk (sectionsOf iconPackage spec) routes).imports =
    .named ["Route"] "react-router-dom" :: ((iconSections iconPackage (IconSet.ofSpec spec).icons).values.flatten ++
      (Bindings.imports (Bindings.ofSpec spec)).map .whole) := by
  have hviews := flatten_viewGroups (Bindings.ofSpec spec)
  unfold Keyed.values at hviews
  unfold Contents.imports sectionsOf Keyed.values
  rw [List.map_cons, List.map_append, List.map_cons, List.flatten_cons, List.flatten_append, List.flatten_cons, hviews,
    Bindings.imports, List.map_append]
  rfl

theorem whole_not_mem_iconSections (icons : List String) (i : Import) :
    ImportStatement.whole i ∉ (iconSections iconPackage icons).values.flatten := by
  unfold iconSections
  by_cases hi : icons = []
  · rw [if_pos hi]
    exact List.not_mem_nil
  · rw [if_neg hi]
    simp [Keyed.values]

theorem mem_imports_sectionsOf {i : Import}
    (h : .whole i ∈ (Contents.mk (sectionsOf iconPackage spec) routes).imports) :
    i ∈ Bindings.imports (Bindings.ofSpec spec) := by
  rw [imports_sectionsOf, List.mem_cons, List.mem_append] at h
  rcases h with he | hm | hm
  · cases he
  · exact absurd hm (whole_not_mem_iconSections iconPackage _ i)
  · obtain ⟨j, hj, he⟩ := List.mem_map.mp hm
    cases he
    exact hj

theorem keys_sectionsOf : (sectionsOf iconPackage spec).keys =
    "" :: ((iconSections iconPackage (IconSet.ofSpec spec).icons).keys ++
      " Layouts" :: (viewGroups (Bindings.ofSpec spec)).map fun g => viewsHeading g.layout) := by
  unfold sectionsOf Keyed.keys
  rw [List.map_cons, List.map_append, List.map_cons]
  exact congrArg (fun more => "" :: (_ ++ " Layouts" :: more)) List.map_map

theorem mem_keys_iconSections (icons : List String) (heading : String) :
    heading ∈ (iconSections iconPackage icons).keys ↔ icons ≠ [] ∧ heading = " Icons" := by
  unfold iconSections
  by_cases hi : icons = []
  · rw [if_pos hi]
    exact iff_of_false List.not_mem_nil fun hn => hn.1 hi
  · rw [if_neg hi]
    simp [Keyed.keys, hi]

/-- The section of the icons is there exactly if there are icons. -/
theorem mem_keys_icons : " Icons" ∈ (sectionsOf iconPackage spec).keys ↔ (IconSet.ofSpec spec).icons ≠ [] := by
  rw [keys_sectionsOf, List.mem_cons, List.mem_append, mem_keys_iconSections, List.mem_cons]
  constructor
  · intro hm
    rcases hm with he | ⟨hne, -⟩ | he | hm
    · exact absurd he (by decide)
    · exact hne
    · exact absurd he (by decide)
    · obtain ⟨g, -, he⟩ := List.mem_map.mp hm
      exact absurd he.symm (viewsHeading_ne (by decide))
  · exact fun hne => .inr (.inl ⟨hne, rfl⟩)

theorem names_iconSections (icons : List String) :
    (iconSections iconPackage icons).values.flatten.flatMap ImportStatement.names = icons := by
  unfold iconSections
  by_cases hi : icons = []
  · rw [if_pos hi, hi]
    rfl
  · rw [if_neg hi]
    simp [Keyed.values, ImportStatement.names]

/-- **The names that are brought in**: the route, the icons and the names of the imports. -/
theorem imported_sectionsOf : (Contents.mk (sectionsOf iconPackage spec) routes).imported =
    "Route" :: ((IconSet.ofSpec spec).icons ++
      (Bindings.layoutNames (Bindings.ofSpec spec) ++ Bindings.viewNames (Bindings.ofSpec spec))) := by
  have hwhole : ∀ imports : List Import, (imports.map ImportStatement.whole).flatMap ImportStatement.names =
      imports.map Import.binding := by
    intro imports
    rw [List.flatMap_map]
    exact List.map_eq_flatMap.symm
  rw [Contents.imported, imports_sectionsOf, List.flatMap_cons, List.flatMap_append, names_iconSections, hwhole,
    Bindings.names_imports]
  rfl

end Sections

/-! ## 3. Closed modules -/

namespace Contents

/-- A node has the name of its own import as component, and the import is there once. -/
structure Owns (c : Contents) (table : Bindings) (trail : List String) (own : Members) (i : Import) : Prop where
  found : table.own? trail = some i
  /-- The import leads to the component of the node. -/
  source : i.source = Bindings.ownSource trail
  element : Keyed.get? own "element" = some (.component i.binding)
  named : i.binding ≠ ""
  once : c.imports.count (.whole i) = 1
  /-- Only an icon of this name brings the name in again. -/
  count : c.imported.count i.binding = if i.binding ∈ c.icons then 2 else 1

/-- What the nodes of the routes refer to is imported, and what is imported is referred to. -/
structure Closed (c : Contents) (iconPackage : String) (spec : Spec) : Prop where
  owns : ∀ trail own, Node c.routes trail own → ∃ i, c.Owns (Bindings.ofSpec spec) trail own i
  used : ∀ i, .whole i ∈ c.imports → ∃ trail own, Node c.routes trail own ∧ c.Owns (Bindings.ofSpec spec) trail own i
  icons : ∀ icon, icon ∈ c.icons ↔
    ∃ trail own, Node c.routes trail own ∧ Keyed.get? own "icon" = some (.component icon)
  /-- The section of the icons is there exactly if a node has an icon, and holds one import list. -/
  iconSection : " Icons" ∈ c.sections.keys ↔
    ∃ trail own icon, Node c.routes trail own ∧ Keyed.get? own "icon" = some (.component icon)
  iconImport : " Icons" ∈ c.sections.keys → c.under " Icons" = [.named c.icons iconPackage]
  /-- The section of a layout's views is there exactly if the layout has a view. -/
  viewSection : ∀ key layout, (key, layout) ∈ spec.layouts →
    (viewsHeading key ∈ c.sections.keys ↔ 0 < layout.views.count)

end Contents

section Accepted

variable {spec : Spec} (h : spec.Accepted) (iconPackage : String)

/-- What is read off the routing module of a specification. -/
def contentsOf (iconPackage : String) (spec : Spec) : Contents :=
  ⟨sectionsOf iconPackage spec, routesMembers spec (Bindings.ofSpec spec)⟩

include h

theorem icons_contentsOf : (contentsOf iconPackage spec).icons = (IconSet.ofSpec spec).icons := by
  rw [Contents.icons, contentsOf, (tells_of_accepted h iconPackage).icons]
  by_cases hi : (IconSet.ofSpec spec).icons = []
  · rw [if_pos hi, hi]
    rfl
  · rw [if_neg hi]
    exact List.flatMap_singleton ..

/-- Each import is there once. -/
theorem count_imports {i : Import} (hi : i ∈ Bindings.imports (Bindings.ofSpec spec)) :
    (contentsOf iconPackage spec).imports.count (.whole i) = 1 := by
  have hn : ((Bindings.imports (Bindings.ofSpec spec)).map ImportStatement.whole).Nodup := by
    refine List.Nodup.map (fun a b hab => by cases hab; rfl) (List.Nodup.of_map Import.binding ?_)
    rw [Bindings.names_imports]
    exact Bindings.nodup_names h
  have hicons := whole_not_mem_iconSections iconPackage (IconSet.ofSpec spec).icons i
  rw [contentsOf, imports_sectionsOf, List.count_cons, List.count_append, List.count_eq_zero_of_not_mem hicons,
    List.count_eq_one_of_mem hn (List.mem_map_of_mem hi)]
  rfl

/-- **The name of an import is brought in once, and once more if an icon has it too.** -/
theorem count_imported {i : Import} (hi : i ∈ Bindings.imports (Bindings.ofSpec spec)) :
    (contentsOf iconPackage spec).imported.count i.binding =
      if i.binding ∈ (contentsOf iconPackage spec).icons then 2 else 1 := by
  have hname := List.mem_map_of_mem (f := Import.binding) hi
  rw [Bindings.names_imports] at hname
  have hroute : "Route" ≠ i.binding := by
    intro he
    have hmarked := (Bindings.marked_names h _ hname).2
    rw [← he] at hmarked
    revert hmarked
    decide
  have hicons : (IconSet.ofSpec spec).icons.count i.binding =
      if i.binding ∈ (IconSet.ofSpec spec).icons then 1 else 0 := by
    by_cases hm : i.binding ∈ (IconSet.ofSpec spec).icons
    · rw [if_pos hm, List.count_eq_one_of_mem (IconSet.nodup_ofSpec spec) hm]
    · rw [if_neg hm, List.count_eq_zero_of_not_mem hm]
  rw [icons_contentsOf h, contentsOf, imported_sectionsOf, List.count_cons_of_ne hroute, List.count_append, hicons,
    List.count_eq_one_of_mem (Bindings.nodup_names h) hname]
  by_cases hm : i.binding ∈ (IconSet.ofSpec spec).icons
  · rw [if_pos hm, if_pos hm]
  · rw [if_neg hm, if_neg hm]

/-- The import of a node makes it own what it names. -/
theorem owns_of_mem {i : Import} (hi : i ∈ Bindings.imports (Bindings.ofSpec spec)) {trail : List String}
    {own : Members} (hf : (Bindings.ofSpec spec).own? trail = some i) (hs : i.source = Bindings.ownSource trail)
    (he : Keyed.get? own "element" = some (.component i.binding)) :
    (contentsOf iconPackage spec).Owns (Bindings.ofSpec spec) trail own i := by
  refine ⟨hf, hs, he, ?_, count_imports h iconPackage hi, count_imported h iconPackage hi⟩
  have hname := List.mem_map_of_mem (f := Import.binding) hi
  rw [Bindings.names_imports] at hname
  obtain ⟨c, rest, hc, -⟩ := (Bindings.marked_names h _ hname).1
  intro hempty
  rw [hempty] at hc
  cases hc

theorem owns_layout {key : String} {layout : Layout} (hl : (key, layout) ∈ spec.layouts) :
    ∃ i, (contentsOf iconPackage spec).Owns (Bindings.ofSpec spec) [key]
      (layoutMembers (Bindings.ofSpec spec) key layout) i := by
  obtain ⟨i, hi, hf, hs, hn⟩ := Bindings.own_layout h hl
  refine ⟨i, owns_of_mem h iconPackage hi hf hs ?_⟩
  rw [layoutMembers_eq, get?_element, hn]

theorem owns_view {key : String} {layout : Layout} (hl : (key, layout) ∈ spec.layouts) (more : List String) {k : String}
    (view : ViewNode) (hk : k ∈ layout.views.keys) :
    ∃ i, (contentsOf iconPackage spec).Owns (Bindings.ofSpec spec) (key :: (more ++ [k]))
      (viewNodeMembers (Bindings.ofSpec spec) key k view) i := by
  obtain ⟨i, hi, hf, hs, hn⟩ := Bindings.own_view h hl hk
  rw [← Bindings.own?_view _ key more] at hf
  rw [← Bindings.ownSource_view key more] at hs
  refine ⟨i, owns_of_mem h iconPackage hi hf hs ?_⟩
  rw [viewNodeMembers, get?_element, hn]

/-- **Every node owns an import.** -/
theorem owns_node (trail : List String) (own : Members) (hn : Node (contentsOf iconPackage spec).routes trail own) :
    ∃ i, (contentsOf iconPackage spec).Owns (Bindings.ofSpec spec) trail own i := by
  obtain ⟨key, layout, hl, ⟨rfl, rfl⟩ | ⟨more, k, view, rfl, rfl, hamong⟩⟩ := node_cases hn
  · exact owns_layout h iconPackage hl
  · exact owns_view h iconPackage hl more view (List.mem_map_of_mem (f := Prod.fst) hamong.node)

/-- **Every import is owned by a node.** -/
theorem used_import (i : Import) (hi : .whole i ∈ (contentsOf iconPackage spec).imports) :
    ∃ trail own, Node (contentsOf iconPackage spec).routes trail own ∧
      (contentsOf iconPackage spec).Owns (Bindings.ofSpec spec) trail own i := by
  obtain ⟨key, layout, hl, hf | ⟨k, hk, hf⟩⟩ := Bindings.mem_imports h (mem_imports_sectionsOf _ _ _ hi)
  · obtain ⟨j, howns⟩ := owns_layout h iconPackage hl
    have hj : j = i := Option.some.inj (howns.found.symm.trans hf)
    exact ⟨[key], _, node_layout hl, hj ▸ howns⟩
  · obtain ⟨node, hn, rfl⟩ := List.mem_map.mp hk
    obtain ⟨more, view, hview, hnode⟩ := node_view (Bindings.ofSpec spec) hl hn
    obtain ⟨j, howns⟩ := owns_view h iconPackage hl more view hk
    have hj : j = i := Option.some.inj ((howns.found.symm.trans (Bindings.own?_view ..)).trans hf)
    exact ⟨_, _, hnode, hj ▸ howns⟩

/-- **The icons are those of the nodes.** -/
theorem icon_iff (icon : String) : icon ∈ (contentsOf iconPackage spec).icons ↔
    ∃ trail own, Node (contentsOf iconPackage spec).routes trail own ∧
      Keyed.get? own "icon" = some (.component icon) := by
  rw [icons_contentsOf h, IconSet.mem_ofSpec_iff]
  constructor
  · intro hstands
    obtain ⟨key, layout, hl, hicon | ⟨⟨k, info⟩, hn, hicon⟩⟩ := hstands
    · refine ⟨[key], _, node_layout hl, ?_⟩
      rw [layoutMembers_eq, get?_icon, hicon]
      rfl
    · obtain ⟨more, view, rfl, hnode⟩ := node_view (Bindings.ofSpec spec) hl hn
      refine ⟨_, _, hnode, ?_⟩
      rw [viewNodeMembers, get?_icon, ← hicon]
      rfl
  · intro hof
    obtain ⟨trail, own, hnode, hicon⟩ := hof
    obtain ⟨key, layout, hl, ⟨rfl, rfl⟩ | ⟨more, k, view, rfl, rfl, hamong⟩⟩ := node_cases hnode
    · rw [layoutMembers_eq, get?_icon] at hicon
      obtain ⟨name, hname, he⟩ := Option.map_eq_some_iff.mp hicon
      cases he
      exact ⟨key, layout, hl, .inl hname⟩
    · rw [viewNodeMembers, get?_icon] at hicon
      cases hicon
      exact ⟨key, layout, hl, .inr ⟨_, hamong.node, rfl⟩⟩

/-- The section of a layout's views is there exactly if the layout has a view. -/
theorem mem_keys_views {key : String} {layout : Layout} (hl : (key, layout) ∈ spec.layouts) :
    viewsHeading key ∈ (contentsOf iconPackage spec).sections.keys ↔ 0 < layout.views.count := by
  obtain ⟨l, he, hkeys⟩ := exists_imports h hl
  have hcount : 0 < layout.views.count ↔ l.views ≠ [] := by
    have hlength : l.views.length = layout.views.count := by
      have := congrArg List.length hkeys
      rw [Keyed.keys, Views.keys, List.length_map, List.length_map, Views.length_nodes] at this
      exact this
    rw [← hlength, List.length_pos_iff]
  have htable : (Bindings.ofSpec spec).keys = spec.layouts.keys := by
    rw [Bindings.ofSpec_eq h, Bindings.keys_tableOf]
  rw [hcount, contentsOf, keys_sectionsOf, List.mem_cons, List.mem_append, mem_keys_iconSections, List.mem_cons]
  constructor
  · intro hm
    rcases hm with heq | ⟨-, heq⟩ | heq | hm
    · exact absurd heq.symm (viewsHeading_ne (by decide))
    · exact absurd heq.symm (viewsHeading_ne (by decide))
    · exact absurd heq.symm (viewsHeading_ne (by decide))
    · obtain ⟨g, hg, heq⟩ := List.mem_map.mp hm
      obtain ⟨⟨k, l'⟩, hf, rfl⟩ := List.mem_map.mp hg
      obtain ⟨he', hne⟩ := List.mem_filter.mp hf
      -- Headings differ from layout to layout, so that this is the group of the layout itself.
      have hk : k ∈ spec.layouts.keys := htable ▸ List.mem_map_of_mem (f := Prod.fst) he'
      have hkey : key ∈ spec.layouts.keys := List.mem_map_of_mem (f := Prod.fst) hl
      have hsame : k = key := List.inj_on_of_nodup_map (nodup_viewsHeadings h) hk hkey heq
      subst hsame
      have hn : (Bindings.ofSpec spec).keys.Nodup := htable ▸ h.nodup_keys
      have hl' : l' = l := Option.some.inj ((Keyed.get?_of_mem hn he').symm.trans (Keyed.get?_of_mem hn he))
      subst hl'
      intro hempty
      simp [hempty] at hne
  · intro hne
    refine .inr (.inr (.inr (List.mem_map.mpr ⟨⟨key, l.views.values⟩, ?_, rfl⟩)))
    exact List.mem_map.mpr ⟨(key, l), List.mem_filter.mpr ⟨he, by simp [hne]⟩, rfl⟩

theorem closed_contentsOf : (contentsOf iconPackage spec).Closed iconPackage spec := by
  refine ⟨owns_node h iconPackage, used_import h iconPackage, icon_iff h iconPackage, ?_, fun hm => ?_,
    fun key layout hl => mem_keys_views h iconPackage hl⟩
  · have hicon := icon_iff h iconPackage
    rw [icons_contentsOf h] at hicon
    rw [contentsOf, mem_keys_icons]
    constructor
    · intro hne
      obtain ⟨icon, hi⟩ := List.exists_mem_of_ne_nil _ hne
      obtain ⟨trail, own, hnode⟩ := (hicon icon).mp hi
      exact ⟨trail, own, icon, hnode⟩
    · intro ⟨trail, own, icon, hnode⟩
      exact List.ne_nil_of_mem ((hicon icon).mpr ⟨trail, own, hnode⟩)
  · have hne := (mem_keys_icons iconPackage spec).mp hm
    rw [icons_contentsOf h, contentsOf, (tells_of_accepted h iconPackage).icons, if_neg hne]

end Accepted

/-- **The routing module of an accepted specification is closed, up to icons that have the name of an import.** -/
theorem closed_up_to_icons {defaults : Defaults} {document : Document} {spec : Spec} {iconPackage : String}
    (h : Spec.validate defaults document = .ok spec) (hp : Plain iconPackage) :
    ∃ text contents, Renderer.builtin.routes (Parts.ofSpec iconPackage spec) = .ok text ∧
      Contents.read text = some contents ∧ contents.Closed iconPackage spec :=
  have ha := Spec.accepted_of_validate h
  ⟨(Parts.ofSpec iconPackage spec).text, contentsOf iconPackage spec, rfl, read_text ha hp,
    closed_contentsOf ha iconPackage⟩

/-- A container with a view of the same key below another layout, an empty mapping of views and a layout without
    icon. -/
theorem nested_module_closed : ∃ spec text contents,
    Spec.validate .standard (.map [
      ("home", .map [("icon", .text "AiFillBank"), ("routes", .map [
        ("users", .map [("routes", .map [("list", .map [])])]), ("logs", .map [("routes", .map [])])])]),
      ("admin", .map [("routes", .map [("list", .map [("icon", .text "AiFillBank")])])]), ("help", .map [])]) =
        .ok spec ∧
    Plain standardIconPackage ∧
    Renderer.builtin.routes (Parts.ofSpec standardIconPackage spec) = .ok text ∧
    Contents.read text = some contents ∧ contents.Closed standardIconPackage spec ∧
    contents.icons = ["AiFillBank", "AiFillHome"] := by
  have h : Spec.validate .standard (.map [
      ("home", .map [("icon", .text "AiFillBank"), ("routes", .map [
        ("users", .map [("routes", .map [("list", .map [])])]), ("logs", .map [("routes", .map [])])])]),
      ("admin", .map [("routes", .map [("list", .map [("icon", .text "AiFillBank")])])]), ("help", .map [])]) =
        .ok _ := rfl
  have hp : Plain standardIconPackage := by decide
  obtain ⟨text, contents, htext, hread, hclosed⟩ := closed_up_to_icons h hp
  cases htext
  have hcontents := Option.some.inj (hread.symm.trans (read_text (Spec.accepted_of_validate h) hp))
  refine ⟨_, _, contents, h, hp, rfl, hread, hclosed, ?_⟩
  rw [hcontents]
  rfl

/-- An icon that has the name of a layout's import brings this name in a second time. -/
theorem icon_imports_again : ∃ spec contents i,
    Spec.validate .standard (.map [("home", .map [("icon", .text "HomeLayout")])]) = .ok spec ∧
    Contents.read (Parts.ofSpec standardIconPackage spec).text = some contents ∧
    (Bindings.ofSpec spec).own? ["home"] = some i ∧ contents.imported.count i.binding = 2 := by
  have h : Spec.validate .standard (.map [("home", .map [("icon", .text "HomeLayout")])]) = .ok _ := rfl
  exact ⟨_, _, ⟨"HomeLayout", _⟩, h, read_text (Spec.accepted_of_validate h) (by decide), rfl, by decide⟩

end RoutingModule

end RouteScaffold
