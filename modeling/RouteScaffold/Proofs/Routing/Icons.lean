import RouteScaffold.Proofs.Schema.Accepted
import RouteScaffold.Routing.IconSet

/-!
# The icons of a specification

The set of icons is filled along the tour.

* `Spec.icons`: the icons as the nodes of a specification use them, each as often as it is used;
* `IconSet.icons_ofSpec`: the set holds these in order of their first use;
* `IconSet.isIcon_of_mem`: of an accepted specification they can all be imported.
-/

namespace RouteScaffold

/-! ## 1. Icons in use -/

/-- The icons of a layout as they are used: its own, if it has one, ahead of those of its views, and that of each view
    ahead of those below it. -/
def Layout.icons (layout : Layout) : List String :=
  layout.icon.toList ++ layout.views.nodes.map fun node => node.2.icon

/-- The icons of a specification as they are used, one layout after the other. -/
def Spec.icons (spec : Spec) : List String := spec.layouts.flatMap fun (_, layout) => layout.icons

theorem Views.icons_tour (layout : String) (views : Views) (parent : Option String) (depth : Nat) :
    (views.tour layout parent depth).filterMap IconSet.iconOf? = views.nodes.map fun node => node.2.icon := by
  induction views generalizing parent depth with
  | nil => rfl
  | leaf key info rest ih => simp [tour, nodes, IconSet.iconOf?, List.filterMap_cons, ih]
  | container key info children rest ihc ih =>
      simp [tour, nodes, IconSet.iconOf?, List.filterMap_cons, ihc, ih]

/-- **The tour brings the icons as they are used.** -/
theorem Spec.icons_tour (spec : Spec) : spec.tour.filterMap IconSet.iconOf? = spec.icons := by
  have hlayout : ∀ (key : String) (layout : Layout),
      (layout.tour key).filterMap IconSet.iconOf? = layout.icons := by
    intro key layout
    cases hicon : layout.icon <;>
      simp [Layout.tour, Layout.icons, IconSet.iconOf?, Views.icons_tour, List.filterMap_cons, hicon]
  simp only [tour, icons, List.filterMap_flatMap, hlayout]

theorem Spec.mem_icons_iff (spec : Spec) (icon : String) : icon ∈ spec.icons ↔
    ∃ key layout, (key, layout) ∈ spec.layouts ∧
      (layout.icon = some icon ∨ ∃ node ∈ layout.views.nodes, node.2.icon = icon) := by
  simp only [icons, Layout.icons, List.mem_flatMap, List.mem_append, Option.mem_toList, List.mem_map,
    Prod.exists]

namespace IconSet

/-! ## 2. Insertion -/

theorem insert_of_mem {s : IconSet} {icon : String} (h : icon ∈ s.icons) : s.insert icon = s := by
  rw [insert, add, contains, if_pos (List.contains_iff_mem.mpr h)]

theorem icons_insert_of_not_mem {s : IconSet} {icon : String} (h : icon ∉ s.icons) :
    (s.insert icon).icons = s.icons ++ [icon] := by
  rw [insert, add, contains, if_neg fun hc => h (List.contains_iff_mem.mp hc)]

theorem nodup_insert (s : IconSet) (icon : String) (hs : s.icons.Nodup) : (s.insert icon).icons.Nodup := by
  by_cases h : icon ∈ s.icons
  · rw [insert_of_mem h]
    exact hs
  · rw [icons_insert_of_not_mem h]
    rw [← List.concat_eq_append]
    exact (List.nodup_concat _ _).mpr ⟨h, hs⟩

/-- **Names inserted one after the other** come behind those that are there, in order of their first occurrence. -/
theorem icons_foldl_insert (names : List String) (s : IconSet) :
    (names.foldl insert s).icons = s.icons ++ (names.removeAll s.icons).eraseDups := by
  induction names generalizing s with
  | nil => simp
  | cons name rest ih =>
      rw [List.foldl_cons, ih]
      by_cases h : name ∈ s.icons
      · rw [insert_of_mem h]
        simp [List.removeAll, h]
      · rw [icons_insert_of_not_mem h, List.append_assoc]
        simp [List.removeAll, h, List.eraseDups_cons, List.filter_filter, Bool.and_comm, beq_eq_decide]

/-! ## 3. The whole tour -/

theorem ofSpec_eq_foldl (spec : Spec) : ofSpec spec = spec.icons.foldl insert empty := by
  have hfold : ∀ (events : List TourEvent) (s : IconSet),
      events.foldl (fun s event => (iconOf? event).elim s s.insert) s = (events.filterMap iconOf?).foldl insert s := by
    intro events
    induction events with
    | nil => exact fun _ => rfl
    | cons event rest ih =>
        intro s
        rw [List.foldl_cons, ih, List.filterMap_cons]
        cases iconOf? event <;> rfl
  rw [ofSpec, hfold, Spec.icons_tour]

/-- **The set holds the icons in use in order of their first use.** -/
theorem icons_ofSpec (spec : Spec) : (ofSpec spec).icons = spec.icons.eraseDups := by
  rw [ofSpec_eq_foldl, icons_foldl_insert]
  simp [empty, List.removeAll]

/-- **Each icon is there once.** -/
theorem nodup_ofSpec (spec : Spec) : (ofSpec spec).icons.Nodup := by
  have hfold : ∀ (names : List String) (s : IconSet), s.icons.Nodup → (names.foldl insert s).icons.Nodup := by
    intro names
    induction names with
    | nil => exact fun _ hs => hs
    | cons name rest ih => exact fun s hs => ih _ (nodup_insert s name hs)
  rw [ofSpec_eq_foldl]
  exact hfold spec.icons empty List.nodup_nil

/-- **The icons are those of the layouts and of the views.** -/
theorem mem_ofSpec_iff (spec : Spec) (icon : String) : icon ∈ (ofSpec spec).icons ↔
    ∃ key layout, (key, layout) ∈ spec.layouts ∧
      (layout.icon = some icon ∨ ∃ node ∈ layout.views.nodes, node.2.icon = icon) := by
  rw [icons_ofSpec, List.mem_eraseDups, Spec.mem_icons_iff]

/-! ## 4. Icons that can be imported -/

theorem isIcon_of_mem {spec : Spec} (h : spec.Accepted) {icon : String}
    (hi : icon ∈ (ofSpec spec).icons) : Spec.IsIcon icon := by
  obtain ⟨key, layout, hl, hicon | ⟨node, hn, rfl⟩⟩ := (mem_ofSpec_iff spec icon).mp hi
  · exact (h.layouts _ hl).icon icon hicon
  · exact (h.layouts _ hl).viewIcons node hn

end IconSet

end RouteScaffold
