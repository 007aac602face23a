import RouteScaffold.Proofs.Routing.Trails

/-!
# The parts of the route table agree

The path table, the routing entries and the sitemap are built by three recursions of their own, each of which carries
the full path along. Layout by layout they agree (`Agrees`): all are read off the trails of the layout, and the full
path of a trail is the fold of its segments on the layout's path (`table_agrees`).
-/

namespace RouteScaffold

/-! ## 1. Layouts in the path table -/

/-- The trails of a layout. -/
def Layout.trails (layout : Layout) : List Trail := layout.views.trails

/-- What the path table has for a layout: its path, or a table if it has a mapping of views. -/
def Layout.entry (layout : Layout) : PathEntry :=
  match layout.children with
  | none => .leaf layout.path
  | some views => .nested (views.paths layout.path)

/-- Keys below a layout lead where they lead in the path table of its views. -/
theorem Layout.follow?_entry (layout : Layout) (key : String) (keys : List String) :
    layout.entry.follow? (key :: keys) = (layout.views.paths layout.path).find? (key :: keys) := by
  unfold entry
  cases hc : layout.children with
  | none =>
      rw [layout.views_none hc]
      exact PathTable.follow?_leaf layout.path key keys
  | some views =>
      rw [layout.views_some hc]
      exact PathTable.follow?_nested _ key keys

/-- Keys lead into the entry of the first layout, or past it. -/
theorem PathTable.find?_ofLayouts_cons (k : String) (layout : Layout) (rest : Keyed Layout) (key : String)
    (keys : List String) : (ofLayouts ((k, layout) :: rest)).find? (key :: keys) =
      if k = key then layout.entry.follow? keys else (ofLayouts rest).find? (key :: keys) := by
  rw [ofLayouts, Layout.entry]
  cases layout.children with
  | none => exact find?_leaf ..
  | some views => exact find?_nested ..

/-- **Keys that begin with that of a layout lead into its entry**, where the keys of layouts differ. -/
theorem PathTable.find?_ofLayouts {layouts : Keyed Layout} (hn : layouts.keys.Nodup) {key : String} {layout : Layout}
    (hm : (key, layout) ∈ layouts) (keys : List String) :
    (ofLayouts layouts).find? (key :: keys) = layout.entry.follow? keys := by
  induction layouts with
  | nil => cases hm
  | cons entry rest ih =>
      obtain ⟨k, l⟩ := entry
      obtain ⟨hk, hrest⟩ := List.nodup_cons.mp hn
      rw [find?_ofLayouts_cons]
      rcases List.mem_cons.mp hm with he | hm
      · cases he
        exact if_pos rfl
      · have hkey : key ∈ rest.map Prod.fst := List.mem_map_of_mem hm
        have hne : k ≠ key := fun e => hk (e ▸ hkey)
        rw [if_neg hne, ih hrest hm]

/-- Keys that begin with no key of a layout lead nowhere. -/
theorem PathTable.find?_ofLayouts_none {layouts : Keyed Layout} {key : String} (h : key ∉ layouts.keys)
    (keys : List String) : (ofLayouts layouts).find? (key :: keys) = none := by
  induction layouts with
  | nil => rfl
  | cons entry rest ih =>
      obtain ⟨k, l⟩ := entry
      rw [Keyed.keys, List.map_cons, List.mem_cons, not_or] at h
      rw [find?_ofLayouts_cons, if_neg (Ne.symm h.1)]
      exact ih h.2

/-! ## 2. Agreement -/

/-- The parts of a route table agree on a layout, whose routing entry and section of the sitemap are given. Position
    by position the routing entries, the items of the sitemap and the views that a walk enters are the trails of the
    layout; along the keys of a trail the path table has its full path, or a table. -/
structure Agrees (table : RouteTable) (key : String) (layout : Layout) (entry : LayoutElement)
    (part : SitemapSection) : Prop where
  entryKey : entry.key = key
  elements : entry.views.map (fun e => (e.key, e.path)) = layout.trails.map fun t => (t.key, t.path layout.path)
  items : part.items.flatten 1 = layout.trails.map fun t => (t.depth, t.info.title, t.path layout.path)
  flatten : part.flatten = (0, layout.title) :: layout.trails.map fun t => (t.depth, t.info.title)
  walk : (layout.visited key).filterMap TourEvent.standing? = layout.trails.map fun t => (t.key, t.depth)
  ownEntry : table.lookup? [key] = some layout.entry
  entries : ∀ t ∈ layout.trails, table.lookup? (key :: t.keys) = some (t.entry layout.path)
  nowhere : ∀ keys, keys ≠ [] → (∀ t ∈ layout.trails, t.keys ≠ keys) → table.lookup? (key :: keys) = none

namespace RouteTable

section Layouts

variable {spec : Spec} (h : spec.Accepted) (bindings : Bindings)
include h

/-- Keys below a layout lead where they lead in the path table of its views. -/
theorem lookup?_below {key : String} {layout : Layout} (hm : (key, layout) ∈ spec.layouts) (first : String)
    (more : List String) : (build spec bindings).lookup? (key :: first :: more) =
      (layout.views.paths layout.path).find? (first :: more) := by
  rw [lookup?_eq, ← Layout.follow?_entry]
  exact PathTable.find?_ofLayouts h.nodup_keys hm (first :: more)

theorem agrees_of_mem {key : String} {layout : Layout} (hm : (key, layout) ∈ spec.layouts) :
    Agrees (build spec bindings) key layout (layout.element bindings key) layout.sitemapSection := by
  have hitems := Views.flatten_sitemap layout.views layout.path 0
  simp only [Nat.zero_add] at hitems
  refine ⟨rfl, ?elements, hitems, ?flatten, ?walk, ?ownEntry, fun t ht => ?entries, fun keys hk hnone => ?nowhere⟩
  case elements =>
    show (layout.views.elements bindings key layout.path).map _ = _
    rw [Views.elements_eq, List.map_map]
    rfl
  case flatten =>
    show (0, layout.title) :: ((layout.views.sitemap layout.path).flatten 1).map _ = _
    rw [hitems, List.map_map]
    rfl
  case walk =>
    have htour := Views.standings_tour key layout.views none 0
    simp only [Nat.zero_add] at htour
    rw [Layout.visited_eq, Layout.tour, List.filterMap_cons, List.filterMap_append, htour]
    exact List.append_nil _
  case ownEntry =>
    rw [lookup?_eq]
    exact PathTable.find?_ofLayouts h.nodup_keys hm []
  case entries =>
    obtain ⟨first, more, hkeys⟩ := t.exists_keys
    rw [hkeys, lookup?_below h bindings hm, ← hkeys]
    exact Views.find?_paths (h.layouts _ hm).nodup_keys ht layout.path
  case nowhere =>
    obtain ⟨first, more, rfl⟩ := List.exists_cons_of_ne_nil hk
    rw [lookup?_below h bindings hm]
    cases hfind : (layout.views.paths layout.path).find? (first :: more) with
    | none => rfl
    | some entry =>
        obtain ⟨t, ht, hkeys⟩ := Views.exists_trail hfind
        exact absurd hkeys (hnone t ht)

end Layouts

/-- The links are the full paths of the routing entries in order. -/
theorem links_eq (spec : Spec) (bindings : Bindings) : (build spec bindings).links =
    (build spec bindings).elements.flatMap fun entry => entry.views.map ViewElement.path := by
  show (spec.layouts.map _).flatMap _ = (spec.layouts.map _).flatMap _
  rw [List.flatMap_map, List.flatMap_map]
  congr 1
  funext entry
  show ((entry.2.views.sitemap entry.2.path).flatten 1).map _ =
    (entry.2.views.elements bindings entry.1 entry.2.path).map _
  rw [Views.flatten_sitemap, Views.elements_eq, List.map_map, List.map_map]
  rfl

/-- **The parts of the route table agree on every node**, whatever the imports: layout by layout in the order of the
    specification, with nothing in the path table beside, and the links in the order of the routing entries. -/
theorem table_agrees {defaults : Defaults} {document : Document} {spec : Spec}
    (h : Spec.validate defaults document = .ok spec) (bindings : Bindings) :
    (build spec bindings).elements.length = spec.layouts.length ∧
    (build spec bindings).sitemap.length = spec.layouts.length ∧
    (∀ (i : Nat) (key : String) (layout : Layout), spec.layouts[i]? = some (key, layout) →
      ∃ entry part, (build spec bindings).elements[i]? = some entry ∧ (build spec bindings).sitemap[i]? = some part ∧
        Agrees (build spec bindings) key layout entry part) ∧
    (∀ key ∉ spec.layouts.keys, ∀ keys, (build spec bindings).lookup? (key :: keys) = none) ∧
    (build spec bindings).links =
      (build spec bindings).elements.flatMap fun entry => entry.views.map ViewElement.path := by
  have ha := Spec.accepted_of_validate h
  refine ⟨List.length_map .., List.length_map .., fun i key layout hi => ?_, fun key hk keys => ?_,
    links_eq spec bindings⟩
  · refine ⟨_, _, ?_, ?_, agrees_of_mem ha bindings (List.mem_of_getElem? hi)⟩
    · show (spec.layouts.map _)[i]? = _
      rw [List.getElem?_map, hi]
      rfl
    · show (spec.layouts.map _)[i]? = _
      rw [List.getElem?_map, hi]
      rfl
  · rw [lookup?_eq]
    exact PathTable.find?_ofLayouts_none hk keys

/-- A view two levels down, below a slash on both sides, and a view with an empty mapping of views. -/
theorem nested_view_agrees : ∃ spec layout entry part,
    Spec.validate .standard (.map [("home", .map [("path", .text "/"), ("routes", .map [
      ("users", .map [("path", .text "/users/"), ("routes", .map [("detail", .map [("path", .text "/:id")])])]),
      ("empty", .map [("routes", .map [])])])])]) = .ok spec ∧
    Agrees (RouteTable.build spec []) "home" layout entry part ∧
    entry.views.map ViewElement.path = ["/users/", "/users/:id", "/"] ∧
    (RouteTable.build spec []).lookup? ["home", "users", "detail"] = some (.leaf "/users/:id") ∧
    (RouteTable.build spec []).lookup? ["home", "empty"] = some (.nested .nil) ∧
    (RouteTable.build spec []).lookup? ["home", "users", "other"] = none := by
  have h : Spec.validate .standard (.map [("home", .map [("path", .text "/"), ("routes", .map [
      ("users", .map [("path", .text "/users/"), ("routes", .map [("detail", .map [("path", .text "/:id")])])]),
      ("empty", .map [("routes", .map [])])])])]) = .ok _ := rfl
  obtain ⟨-, -, hlayouts, -, -⟩ := table_agrees h []
  obtain ⟨entry, part, he, -, hagrees⟩ := hlayouts 0 "home" _ rfl
  have hpaths : entry.views.map ViewElement.path = ["/users/", "/users/:id", "/"] := by
    cases he
    decide
  exact ⟨_, _, entry, part, h, hagrees, hpaths, by decide, by decide, by decide⟩

end RouteTable

end RouteScaffold
