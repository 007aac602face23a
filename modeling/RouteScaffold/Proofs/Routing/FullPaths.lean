import RouteScaffold.Proofs.Routing.Agreement
import RouteScaffold.Proofs.Routing.PathJoin

/-!
# Full paths in the route table

The path table, the routing entries and the sitemap have a full path for each view, and nothing but these and the paths
of layouts (`HasPaths`). So whatever is known of the full path of a trail is known of the whole table, for every
specification and whatever the imports: its segments may be grouped in any way, slashes that are not side by side in a
segment are not side by side in it, and segments that begin but do not end with a slash stand in it side by side.
Main statement: `full_paths`.
-/

namespace RouteScaffold

/-! ## 1. The paths of a table -/

/-- The paths in a path table, each with the keys that lead to it. -/
def PathTable.leaves : PathTable → List (List String × String)
  | .nil => []
  | .leaf key path rest => ([key], path) :: rest.leaves
  | .nested key children rest =>
    (children.leaves.map fun (keys, path) => (key :: keys, path)) ++ rest.leaves

/-- Has the view no mapping of views? -/
def Trail.isLeaf (t : Trail) : Bool := t.children.isNone

/-- What the path table has of a layout, if the full paths of its views are given: its path, or those of its leaves. -/
def Layout.leaves (key : String) (layout : Layout) (path : Trail → String) : List (List String × String) :=
  match layout.children with
  | none => [([key], layout.path)]
  | some _ => (layout.trails.filter Trail.isLeaf).map fun t => (key :: t.keys, path t)

/-- The table has these full paths of the views of a specification: layout by layout, in the order of the trails. -/
structure HasPaths (table : RouteTable) (spec : Spec) (path : Layout → Trail → String) : Prop where
  elements : (table.elements.map fun entry => entry.views.map fun e => (e.key, e.path)) =
    spec.layouts.map fun entry => entry.2.trails.map fun t => (t.key, path entry.2 t)
  items : (table.sitemap.map fun part => part.items.flatten 1) =
    spec.layouts.map fun entry => entry.2.trails.map fun t => (t.depth, t.info.title, path entry.2 t)
  leaves : table.paths.leaves = spec.layouts.flatMap fun entry => entry.2.leaves entry.1 (path entry.2)

/-- All paths in a table: those of the path table, of the routing entries and of the sitemap. -/
def RouteTable.fullPaths (table : RouteTable) : List String :=
  table.paths.leaves.map Prod.snd ++ (table.elements.flatMap (·.views.map ViewElement.path) ++ table.links)

/-! ## 2. Full paths of trails -/

/-- The paths in the path table of views are the full paths of the trails to leaves. -/
theorem Views.leaves_paths (views : Views) (parent : String) :
    (views.paths parent).leaves = (views.trails.filter Trail.isLeaf).map fun t => (t.keys, t.path parent) := by
  induction views generalizing parent with
  | nil => rfl
  | leaf key info rest ih =>
      rw [paths, PathTable.leaves, ih]
      rfl
  | container key info children rest ihc ih =>
      have hbelow : (children.trails.map (Trail.below key info)).filter Trail.isLeaf =
          (children.trails.filter Trail.isLeaf).map (Trail.below key info) := List.filter_map
      have hfront : (Views.container key info children rest).trails.filter Trail.isLeaf =
          (children.trails.filter Trail.isLeaf).map (Trail.below key info) ++ rest.trails.filter Trail.isLeaf := by
        rw [← hbelow, ← List.filter_append]
        rfl
      rw [paths, PathTable.leaves, ihc, ih, hfront, List.map_append, List.map_map, List.map_map]
      rfl

theorem PathTable.leaves_ofLayouts (layouts : Keyed Layout) : (ofLayouts layouts).leaves =
    layouts.flatMap fun entry => entry.2.leaves entry.1 fun t => t.path entry.2.path := by
  induction layouts with
  | nil => rfl
  | cons entry rest ih =>
      obtain ⟨key, layout⟩ := entry
      rw [ofLayouts, List.flatMap_cons, ← ih]
      unfold Layout.leaves
      cases hc : layout.children with
      | none => rfl
      | some views =>
          simp only [leaves, Views.leaves_paths, Layout.trails, layout.views_some hc, List.map_map]
          rfl

/-- **The paths of a table are the full paths of the trails.** -/
theorem RouteTable.hasPaths_build (spec : Spec) (bindings : Bindings) :
    HasPaths (build spec bindings) spec fun layout t => t.path layout.path := by
  refine ⟨?elements, ?items, PathTable.leaves_ofLayouts spec.layouts⟩
  case elements =>
    show (spec.layouts.map _).map _ = _
    rw [List.map_map]
    refine List.map_congr_left fun entry _ => ?_
    show (entry.2.views.elements bindings entry.1 entry.2.path).map _ = _
    rw [Views.elements_eq, List.map_map]
    rfl
  case items =>
    show (spec.layouts.map _).map _ = _
    rw [List.map_map]
    refine List.map_congr_left fun entry _ => ?_
    have hitems := Views.flatten_sitemap entry.2.views entry.2.path 0
    simp only [Nat.zero_add] at hitems
    exact hitems

/-- Full paths that are the same on all trails of a specification are the same in a table. -/
theorem HasPaths.congr {table : RouteTable} {spec : Spec} {path other : Layout → Trail → String}
    (h : HasPaths table spec path)
    (he : ∀ entry ∈ spec.layouts, ∀ t ∈ entry.2.trails, path entry.2 t = other entry.2 t) :
    HasPaths table spec other := by
  refine ⟨h.elements.trans ?elements, h.items.trans ?items, h.leaves.trans ?leaves⟩
  case elements =>
    refine List.map_congr_left fun entry hm => List.map_congr_left fun t ht => ?_
    rw [he entry hm t ht]
  case items =>
    refine List.map_congr_left fun entry hm => List.map_congr_left fun t ht => ?_
    rw [he entry hm t ht]
  case leaves =>
    refine List.flatMap_congr fun entry hm => ?_
    unfold Layout.leaves
    cases entry.2.children with
    | none => rfl
    | some views =>
        refine List.map_congr_left fun t ht => ?_
        rw [he entry hm t (List.mem_of_mem_filter ht)]

/-- What stands in one of two lists with the same image has a counterpart in the other. -/
theorem exists_of_map_eq {α β γ : Type} {xs : List α} {ys : List β} {f : α → γ} {g : β → γ}
    (h : xs.map f = ys.map g) {x : α} (hx : x ∈ xs) : ∃ y ∈ ys, g y = f x := by
  have hmem := List.mem_map_of_mem (f := f) hx
  rw [h] at hmem
  exact List.mem_map.mp hmem

section Members

variable {table : RouteTable} {spec : Spec} {path : Layout → Trail → String} (h : HasPaths table spec path)
include h

theorem HasPaths.mem_leaves {leaf : List String × String} (hl : leaf ∈ table.paths.leaves) :
    ∃ entry ∈ spec.layouts, leaf.2 = entry.2.path ∨ ∃ t ∈ entry.2.trails, leaf.2 = path entry.2 t := by
  rw [h.leaves] at hl
  obtain ⟨entry, hm, hl⟩ := List.mem_flatMap.mp hl
  refine ⟨entry, hm, ?_⟩
  unfold Layout.leaves at hl
  cases hc : entry.2.children with
  | none =>
      rw [hc] at hl
      exact .inl (congrArg Prod.snd (List.mem_singleton.mp hl))
  | some views =>
      rw [hc] at hl
      obtain ⟨t, ht, rfl⟩ := List.mem_map.mp hl
      exact .inr ⟨t, List.mem_of_mem_filter ht, rfl⟩

/-- **A path in a table is that of a layout, or the full path of a trail.** -/
theorem HasPaths.mem_fullPaths {p : String} (hp : p ∈ table.fullPaths) :
    ∃ entry ∈ spec.layouts, p = entry.2.path ∨ ∃ t ∈ entry.2.trails, p = path entry.2 t := by
  rcases List.mem_append.mp hp with hp | hp
  · obtain ⟨leaf, hl, rfl⟩ := List.mem_map.mp hp
    exact h.mem_leaves hl
  rcases List.mem_append.mp hp with hp | hp
  · obtain ⟨element, helement, hp⟩ := List.mem_flatMap.mp hp
    obtain ⟨e, he, rfl⟩ := List.mem_map.mp hp
    obtain ⟨entry, hm, htrails⟩ := exists_of_map_eq h.elements helement
    obtain ⟨t, ht, hpair⟩ := exists_of_map_eq htrails.symm he
    exact ⟨entry, hm, .inr ⟨t, ht, (congrArg Prod.snd hpair).symm⟩⟩
  · obtain ⟨part, hpart, hp⟩ := List.mem_flatMap.mp hp
    obtain ⟨item, hitem, rfl⟩ := List.mem_map.mp hp
    obtain ⟨entry, hm, htrails⟩ := exists_of_map_eq h.items hpart
    obtain ⟨t, ht, rfl⟩ := List.mem_map.mp (htrails ▸ hitem)
    exact ⟨entry, hm, .inr ⟨t, ht, rfl⟩⟩

end Members

/-! ## 3. Segments -/

/-- The path segments of a specification: those of layouts and of views at all depths. -/
def Spec.segments (spec : Spec) : List String :=
  spec.layouts.flatMap fun entry => entry.2.path :: entry.2.views.nodes.map fun node => node.2.path

/-- The segments of a trail are those of views. -/
theorem Views.mem_segments {views : Views} {t : Trail} (ht : t ∈ views.trails) :
    ∀ s ∈ t.segments, s ∈ views.nodes.map fun node => node.2.path := by
  induction views generalizing t with
  | nil => cases ht
  | leaf key info rest ih =>
      intro s hs
      rcases List.mem_cons.mp ht with rfl | ht
      · rw [List.mem_singleton.mp hs]
        exact List.mem_cons_self
      · exact List.mem_cons_of_mem _ (ih ht s hs)
  | container key info children rest ihc ih =>
      intro s hs
      rw [nodes, List.map_cons, List.map_append]
      rcases List.mem_cons.mp ht with rfl | ht
      · rw [List.mem_singleton.mp hs]
        exact List.mem_cons_self
      rcases List.mem_append.mp ht with ht | ht
      · obtain ⟨u, hu, rfl⟩ := List.mem_map.mp ht
        rcases List.mem_cons.mp hs with rfl | hs
        · exact List.mem_cons_self
        · exact List.mem_cons_of_mem _ (List.mem_append_left _ (ihc hu s hs))
      · exact List.mem_cons_of_mem _ (List.mem_append_right _ (ih ht s hs))

section Segments

variable {spec : Spec} {P : String → Prop} (h : ∀ s ∈ spec.segments, P s) {entry : String × Layout}
  (hm : entry ∈ spec.layouts)
include h hm

theorem Spec.layout_segment : P entry.2.path :=
  h _ (List.mem_flatMap.mpr ⟨entry, hm, List.mem_cons_self⟩)

theorem Spec.trail_segments {t : Trail} (ht : t ∈ entry.2.trails) : ∀ s ∈ t.segments, P s := fun s hs =>
  h s (List.mem_flatMap.mpr ⟨entry, hm, List.mem_cons_of_mem _ (Views.mem_segments ht s hs)⟩)

end Segments

/-! ## 4. The laws -/

namespace RouteTable

variable {spec : Spec} (bindings : Bindings)

/-- **The segments of a full path may be grouped in any way.** -/
theorem hasPaths_grouped (grouped : Layout → Trail → Grouping)
    (hg : ∀ layout t, (grouped layout t).segments = layout.path :: t.segments) :
    HasPaths (build spec bindings) spec fun layout t => (grouped layout t).path :=
  (hasPaths_build spec bindings).congr fun entry _ t _ => (Grouping.path_eq (hg entry.2 t)).symm

/-- **No path of a table has two slashes side by side, if no segment has.** -/
theorem not_doubled_fullPaths (h : ∀ s ∈ spec.segments, ¬Doubled s) :
    ∀ p ∈ (build spec bindings).fullPaths, ¬Doubled p := by
  intro p hp
  obtain ⟨entry, hm, rfl | ⟨t, ht, rfl⟩⟩ := (hasPaths_build spec bindings).mem_fullPaths hp
  · exact Spec.layout_segment h hm
  · exact not_doubled_foldl (Spec.layout_segment h hm) (Spec.trail_segments h hm ht)

/-- **Rooted segments stand side by side in full paths.** -/
theorem hasPaths_rooted (h : ∀ s ∈ spec.segments, Rooted s) :
    HasPaths (build spec bindings) spec fun layout t => String.join (layout.path :: t.segments) :=
  (hasPaths_build spec bindings).congr fun _ hm _ ht => foldl_joinPath (Spec.layout_segment h hm).not_ends
    fun s hs => (Spec.trail_segments h hm ht s hs).not_ends

/-- **Paths are a monoid under joining that doubles no slash, and so are the full paths of every route table**: their
    segments may be grouped in any way, they have two slashes side by side only if a segment has, and where each segment
    is empty or begins and does not end with a slash they are the segments side by side. -/
theorem full_paths :
    (∀ a b c, joinPath (joinPath a b) c = joinPath a (joinPath b c)) ∧
    (∀ a, joinPath "" a = a ∧ joinPath a "" = a) ∧
    (∀ a b, ¬Doubled a → ¬Doubled b → ¬Doubled (joinPath a b)) ∧
    ∀ (spec : Spec) (bindings : Bindings),
      (∀ grouped : Layout → Trail → Grouping,
        (∀ layout t, (grouped layout t).segments = layout.path :: t.segments) →
          HasPaths (build spec bindings) spec fun layout t => (grouped layout t).path) ∧
      ((∀ s ∈ spec.segments, ¬Doubled s) → ∀ p ∈ (build spec bindings).fullPaths, ¬Doubled p) ∧
      ((∀ s ∈ spec.segments, Rooted s) →
        HasPaths (build spec bindings) spec fun layout t => String.join (layout.path :: t.segments)) :=
  ⟨joinPath_assoc, fun a => ⟨empty_joinPath a, joinPath_empty a⟩, fun _ _ => not_doubled_joinPath,
    fun _ bindings => ⟨hasPaths_grouped bindings, not_doubled_fullPaths bindings, hasPaths_rooted bindings⟩⟩

/-- Rooted segments four levels deep, one of them empty. -/
theorem rooted_full_paths : ∃ spec, Spec.validate .standard (.map [("admin", .map [("path", .text "/admin"),
      ("routes", .map [("users", .map [("path", .text "/users/all"), ("routes", .map [("tabs", .map [("routes", .map [
        ("audit", .map [("path", .text "/audit")])])])])])])])]) = .ok spec ∧
    (∀ s ∈ spec.segments, Rooted s) ∧ (∀ s ∈ spec.segments, ¬Doubled s) ∧
    HasPaths (build spec []) spec (fun layout t => String.join (layout.path :: t.segments)) ∧
    (build spec []).paths.leaves = [(["admin", "users", "tabs", "audit"], "/admin/users/all/audit")] ∧
    ∀ p ∈ (build spec []).fullPaths, ¬Doubled p := by
  have h : Spec.validate .standard (.map [("admin", .map [("path", .text "/admin"),
      ("routes", .map [("users", .map [("path", .text "/users/all"), ("routes", .map [("tabs", .map [("routes", .map [
        ("audit", .map [("path", .text "/audit")])])])])])])])]) = .ok _ := rfl
  obtain ⟨-, -, -, hlaws⟩ := full_paths
  obtain ⟨-, hdoubled, hrooted⟩ := hlaws _ []
  refine ⟨_, h, ?_, ?_, hrooted ?_, ?_, hdoubled ?_⟩
  all_goals decide +kernel

end RouteTable

end RouteScaffold
