import RouteScaffold.Proofs.Schema.Accepted
import RouteScaffold.Routing.RouteTable

/-!
# Trails

A trail is a view together with the views above it, as one comes to it from its layout; `Views.trails` lists the
trails of a forest in tour order. Each part of the route table is read as this one list:

* `elements_eq`: the routing entries are the trails, each with its full path;
* `flatten_sitemap`: so are the items of the sitemap, each at the depth of its trail;
* `standings_tour`: so are the views that the tour enters;
* `find?_paths`: in the path table the keys of a trail lead to its full path, or to the table below it, and keys that
  are on no trail lead nowhere (`exists_trail`).

All accumulate the full path on the way down, and the full path of a trail is the fold of its segments.
-/

namespace RouteScaffold

/-! ## 1. Trails -/

/-- A view as one comes to it from its layout. -/
structure Trail where
  /-- The views above it, the outermost first. -/
  above : List (String × ViewInfo)
  key : String
  info : ViewInfo
  /-- The views below it, if it has a mapping of views. -/
  children : Option Views

namespace Trail

/-- The trail with a view put ahead. -/
def below (key : String) (info : ViewInfo) (t : Trail) : Trail := { t with above := (key, info) :: t.above }

/-- The keys from the layout to the view. -/
def keys (t : Trail) : List String := t.above.map Prod.fst ++ [t.key]

/-- The path segments from the layout to the view. -/
def segments (t : Trail) : List String := t.above.map (fun node => node.2.path) ++ [t.info.path]

/-- How deep the view stands below its layout, from 1. -/
def depth (t : Trail) : Nat := t.above.length + 1

/-- The full path of the view below a path: its segments joined to it one after the other. -/
def path (parent : String) (t : Trail) : String := t.segments.foldl joinPath parent

/-- What the path table has for the view: its full path, or a table if it has a mapping of views. -/
def entry (parent : String) (t : Trail) : PathEntry :=
  match t.children with
  | none => .leaf (t.path parent)
  | some views => .nested (views.paths (t.path parent))

variable (key : String) (info : ViewInfo) (t : Trail) (parent : String)

/-- The keys of a trail begin with one. -/
theorem exists_keys : ∃ first more, t.keys = first :: more :=
  List.exists_cons_of_ne_nil (List.append_ne_nil_of_right_ne_nil _ (List.cons_ne_nil _ _))

@[simp] theorem key_below : (t.below key info).key = t.key := rfl

@[simp] theorem info_below : (t.below key info).info = t.info := rfl

@[simp] theorem keys_below : (t.below key info).keys = key :: t.keys := rfl

@[simp] theorem depth_below : (t.below key info).depth = t.depth + 1 := rfl

@[simp] theorem path_below : (t.below key info).path parent = t.path (joinPath parent info.path) := rfl

@[simp] theorem entry_below : (t.below key info).entry parent = t.entry (joinPath parent info.path) := rfl

end Trail

namespace Views

/-- The trails to the views of a forest, in tour order. -/
def trails : Views → List Trail
  | .nil => []
  | .leaf key info rest => ⟨[], key, info, none⟩ :: rest.trails
  | .container key info children rest =>
    ⟨[], key, info, some children⟩ :: (children.trails.map (Trail.below key info) ++ rest.trails)

/-- The first key of a trail is a key of the forest. -/
theorem head_mem_keys {views : Views} {t : Trail} (h : t ∈ views.trails) {key : String} {keys : List String}
    (hk : t.keys = key :: keys) : key ∈ views.keys := by
  induction views with
  | nil => cases h
  | leaf k info rest ih =>
      rcases List.mem_cons.mp h with rfl | h
      · cases hk
        exact List.mem_cons_self
      · exact List.mem_cons_of_mem _ (ih h)
  | container k info children rest ihc ih =>
      rw [keys_container]
      rcases List.mem_cons.mp h with rfl | h
      · cases hk
        exact List.mem_cons_self
      rcases List.mem_append.mp h with h | h
      · obtain ⟨t, -, rfl⟩ := List.mem_map.mp h
        cases hk
        exact List.mem_cons_self
      · exact List.mem_cons_of_mem _ (List.mem_append_right _ (ih h))

/-! ## 2. Lists along the trails -/

/-- **The routing entries of views are their trails**, each with its full path. -/
theorem elements_eq (bindings : Bindings) (layout : String) (views : Views) (parent : String) :
    views.elements bindings layout parent =
      views.trails.map fun t => ⟨t.key, t.path parent, viewElement bindings layout t.key⟩ := by
  induction views generalizing parent with
  | nil => rfl
  | leaf key info rest ih =>
      rw [elements, ih]
      rfl
  | container key info children rest ihc ih =>
      rw [elements, ihc, ih, trails, List.map_cons, List.map_append, List.map_map]
      rfl

/-- **The items of the sitemap are the trails**, each at its depth with its title and full path. -/
theorem flatten_sitemap (views : Views) (parent : String) (depth : Nat) :
    (views.sitemap parent).flatten (depth + 1) =
      views.trails.map fun t => (depth + t.depth, t.info.title, t.path parent) := by
  induction views generalizing parent depth with
  | nil => rfl
  | leaf key info rest ih =>
      rw [sitemap, Sitemap.flatten, ih]
      rfl
  | container key info children rest ihc ih =>
      rw [sitemap, Sitemap.flatten, ihc, ih, trails, List.map_cons, List.map_append, List.map_map]
      refine congrArg₂ List.cons rfl (congrArg₂ (· ++ ·) ?_ rfl)
      refine List.map_congr_left fun t _ => ?_
      simp only [Function.comp_apply, Trail.depth_below, Trail.info_below, Trail.path_below]
      rw [Nat.add_right_comm, Nat.add_assoc]

end Views

/-- Where the view stands that an event enters, if it enters one: its key and its depth. -/
def TourEvent.standing? : TourEvent → Option (String × Nat)
  | .enterView standing _ => some (standing.key, standing.depth)
  | _ => none

/-- **The views that the tour enters are the trails**, each at its depth. -/
theorem Views.standings_tour (layout : String) (views : Views) (parent : Option String) (depth : Nat) :
    (views.tour layout parent (depth + 1)).filterMap TourEvent.standing? =
      views.trails.map fun t => (t.key, depth + t.depth) := by
  induction views generalizing parent depth with
  | nil => rfl
  | leaf key info rest ih =>
      simp only [tour, List.filterMap_cons, TourEvent.standing?, ih, trails, List.map_cons]
      rfl
  | container key info children rest ihc ih =>
      simp only [tour, List.filterMap_cons, List.filterMap_append, TourEvent.standing?, ihc, ih, trails,
        List.map_cons, List.map_append, List.map_map]
      refine congrArg₂ List.cons rfl (congrArg₂ (· ++ ·) ?_ rfl)
      refine List.map_congr_left fun t _ => ?_
      simp only [Function.comp_apply, Trail.depth_below, Trail.key_below]
      rw [Nat.add_right_comm, Nat.add_assoc]

/-! ## 3. Lookups along keys -/

/-- The entry that keys lead to from an entry on. -/
def PathEntry.follow? (entry : PathEntry) (keys : List String) : Option PathEntry :=
  keys.foldl (fun found key => found.bind (·.get? key)) (some entry)

namespace PathTable

/-- The entry that keys lead to from a table on. -/
def find? (table : PathTable) : List String → Option PathEntry
  | [] => none
  | key :: keys => (table.get? key).bind (·.follow? keys)

theorem foldl_none (keys : List String) :
    keys.foldl (fun (found : Option PathEntry) key => found.bind (·.get? key)) none = none := by
  induction keys with
  | nil => rfl
  | cons key rest ih => exact ih

/-- Below a path there is nothing. -/
theorem follow?_leaf (path key : String) (keys : List String) : (PathEntry.leaf path).follow? (key :: keys) = none :=
  foldl_none keys

/-- Below a table keys lead where they lead from it. -/
theorem follow?_nested (table : PathTable) (key : String) (keys : List String) :
    (PathEntry.nested table).follow? (key :: keys) = table.find? (key :: keys) := by
  show keys.foldl _ (table.get? key) = (table.get? key).bind _
  cases table.get? key with
  | none => exact foldl_none keys
  | some entry => rfl

end PathTable

/-- The lookup of the route table follows keys from the path table on. -/
theorem RouteTable.lookup?_eq (table : RouteTable) (keys : List String) :
    table.lookup? keys = table.paths.find? keys := by
  cases keys with
  | nil => rfl
  | cons key keys =>
      show keys.foldl _ (table.paths.get? key) = (table.paths.get? key).bind _
      cases table.paths.get? key with
      | none => exact PathTable.foldl_none keys
      | some entry => rfl

namespace PathTable

/-- Keys beside the first entry of a table lead where they lead from the rest of it. -/
theorem find?_leaf (k path : String) (rest : PathTable) (key : String) (keys : List String) :
    (leaf k path rest).find? (key :: keys) =
      if k = key then (PathEntry.leaf path).follow? keys else rest.find? (key :: keys) := by
  rw [find?, get?]
  by_cases h : k = key
  · rw [if_pos h, if_pos h]
    rfl
  · rw [if_neg h, if_neg h]
    rfl

theorem find?_nested (k : String) (children rest : PathTable) (key : String) (keys : List String) :
    (nested k children rest).find? (key :: keys) =
      if k = key then (PathEntry.nested children).follow? keys else rest.find? (key :: keys) := by
  rw [find?, get?]
  by_cases h : k = key
  · rw [if_pos h, if_pos h]
    rfl
  · rw [if_neg h, if_neg h]
    rfl

end PathTable

namespace Views

/-- **The keys of a trail lead to its entry in the path table**, where keys differ. -/
theorem find?_paths {views : Views} (hn : views.keys.Nodup) {t : Trail} (ht : t ∈ views.trails) (parent : String) :
    (views.paths parent).find? t.keys = some (t.entry parent) := by
  induction views generalizing parent t with
  | nil => cases ht
  | leaf key info rest ih =>
      obtain ⟨hkey, hrest⟩ := List.nodup_cons.mp hn
      rcases List.mem_cons.mp ht with rfl | ht
      · exact (PathTable.find?_leaf ..).trans (if_pos rfl)
      · obtain ⟨k, ks, hk⟩ := t.exists_keys
        have hne : key ≠ k := fun e => hkey (e ▸ head_mem_keys ht hk)
        rw [paths, hk, PathTable.find?_leaf, if_neg hne, ← hk]
        exact ih hrest ht parent
  | container key info children rest ihc ih =>
      rw [keys_container] at hn
      obtain ⟨hkey, hn⟩ := List.nodup_cons.mp hn
      obtain ⟨hchildren, hrest, -⟩ := List.nodup_append.mp hn
      rcases List.mem_cons.mp ht with rfl | ht
      · exact (PathTable.find?_nested ..).trans (if_pos rfl)
      rcases List.mem_append.mp ht with ht | ht
      · obtain ⟨u, hu, rfl⟩ := List.mem_map.mp ht
        obtain ⟨k, ks, hk⟩ := u.exists_keys
        rw [paths, Trail.keys_below, PathTable.find?_nested, if_pos rfl, hk, PathTable.follow?_nested, ← hk]
        exact ihc hchildren hu _
      · obtain ⟨k, ks, hk⟩ := t.exists_keys
        have hne : key ≠ k := fun e => hkey (e ▸ List.mem_append_right _ (head_mem_keys ht hk))
        rw [paths, hk, PathTable.find?_nested, if_neg hne, ← hk]
        exact ih hrest ht parent

/-- **Keys that lead to an entry are those of a trail.** -/
theorem exists_trail {views : Views} {parent key : String} {keys : List String} {entry : PathEntry}
    (h : (views.paths parent).find? (key :: keys) = some entry) : ∃ t ∈ views.trails, t.keys = key :: keys := by
  induction views generalizing parent key keys with
  | nil => cases h
  | leaf k info rest ih =>
      rw [paths, PathTable.find?_leaf] at h
      by_cases hk : k = key
      · subst hk
        rw [if_pos rfl] at h
        cases keys with
        | nil => exact ⟨_, List.mem_cons_self, rfl⟩
        | cons next more =>
            rw [PathTable.follow?_leaf] at h
            cases h
      · rw [if_neg hk] at h
        obtain ⟨t, ht, hkeys⟩ := ih h
        exact ⟨t, List.mem_cons_of_mem _ ht, hkeys⟩
  | container k info children rest ihc ih =>
      rw [paths, PathTable.find?_nested] at h
      by_cases hk : k = key
      · subst hk
        rw [if_pos rfl] at h
        cases keys with
        | nil => exact ⟨_, List.mem_cons_self, rfl⟩
        | cons next more =>
            rw [PathTable.follow?_nested] at h
            obtain ⟨t, ht, hkeys⟩ := ihc h
            refine ⟨t.below k info, List.mem_cons_of_mem _ (List.mem_append_left _ (List.mem_map_of_mem ht)), ?_⟩
            rw [Trail.keys_below, hkeys]
      · rw [if_neg hk] at h
        obtain ⟨t, ht, hkeys⟩ := ih h
        exact ⟨t, List.mem_cons_of_mem _ (List.mem_append_right _ ht), hkeys⟩

end Views

end RouteScaffold
