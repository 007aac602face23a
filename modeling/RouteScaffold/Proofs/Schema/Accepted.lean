import Mathlib.Data.List.Nodup
import RouteScaffold.Proofs.Schema.Described
import RouteScaffold.Proofs.Tour

/-!
# Accepted specifications

What validation says of the specification it gives, in terms of the specification alone: `Accepted`. Keys are
identifier fragments, names of layouts differ, names of the views of one layout differ at all depths, and
icons can be imported. All that is generated from a specification rests on these.
-/

namespace RouteScaffold.Spec

/-! ## 1. The facts -/

/-- What a layout of an accepted specification is. -/
structure AcceptedLayout (layout : Layout) : Prop where
  icon : ∀ icon, layout.icon = some icon → IsIcon icon
  viewKeys : ∀ key ∈ layout.views.keys, Name.Fragment key
  viewIcons : ∀ node ∈ layout.views.nodes, IsIcon node.2.icon
  viewNames : (layout.views.keys.map Name.view).Nodup

/-- What an accepted specification is. -/
structure Accepted (spec : Spec) : Prop where
  keys : ∀ key ∈ spec.layouts.keys, Name.Fragment key
  names : (spec.layouts.keys.map Name.layout).Nodup
  layouts : ∀ entry ∈ spec.layouts, AcceptedLayout entry.2

/-- The keys of the views of a layout differ, since their names do. -/
theorem AcceptedLayout.nodup_keys {layout : Layout} (h : AcceptedLayout layout) :
    layout.views.keys.Nodup :=
  List.Nodup.of_map Name.view h.viewNames

theorem Accepted.nodup_keys {spec : Spec} (h : Accepted spec) : spec.layouts.keys.Nodup :=
  List.Nodup.of_map Name.layout h.names

/-! ## 2. Views -/

variable {defaults : Defaults}

/-- The views that entries describe have the keys of the entries, at all depths. -/
theorem DescribesViews.keys_eq {entries : List (String × Document)} {views : Views}
    (h : DescribesViews defaults entries views) : views.keys = (viewsAmong entries).map Prod.fst := by
  induction h with
  | nil => rfl
  | leaf hr _ _ ih =>
      rw [Views.keys, Views.nodes, viewsAmong, viewsUnder_leaf hr, List.nil_append, List.map_cons,
        List.map_cons, ← ih]
      rfl
  | container hr _ _ _ ihc ih =>
      rw [Views.keys_container, viewsAmong, viewsUnder_container hr, List.map_cons, List.map_append, ihc, ih]

/-- Each view that entries describe is described by a view among them. -/
theorem DescribesViews.node_of {entries : List (String × Document)} {views : Views}
    (h : DescribesViews defaults entries views) :
    ∀ node ∈ views.nodes, ∃ fields, (node.1, .map fields) ∈ viewsAmong entries ∧
      DescribesView defaults fields node.2 := by
  induction h with
  | nil => exact fun node hn => by cases hn
  | leaf hr hi _ ih =>
      intro node hn
      rw [viewsAmong, viewsUnder_leaf hr, List.nil_append]
      rcases List.mem_cons.mp hn with rfl | hn
      · exact ⟨_, List.mem_cons_self, hi⟩
      · obtain ⟨fields, hf, hd⟩ := ih node hn
        exact ⟨fields, List.mem_cons_of_mem _ hf, hd⟩
  | container hr hi _ _ ihc ih =>
      intro node hn
      rw [viewsAmong, viewsUnder_container hr]
      rcases List.mem_cons.mp hn with rfl | hn
      · exact ⟨_, List.mem_cons_self, hi⟩
      · rcases List.mem_append.mp hn with hn | hn
        · obtain ⟨fields, hf, hd⟩ := ihc node hn
          exact ⟨fields, List.mem_cons_of_mem _ (List.mem_append_left _ hf), hd⟩
        · obtain ⟨fields, hf, hd⟩ := ih node hn
          exact ⟨fields, List.mem_cons_of_mem _ (List.mem_append_right _ hf), hd⟩

/-- The icon of a view, given or by default, can be imported. -/
theorem AdmissibleView.isIcon {fields : Document.Fields} {info : ViewInfo}
    (h : AdmissibleView defaults fields) (hd : DescribesView defaults fields info) : IsIcon info.icon := by
  rcases hd.icon with hi | ⟨hi, he⟩
  · exact h.givenIcon _ hi
  · rw [he]
    exact h.defaultIcon hi

/-! ## 3. Layouts -/

theorem AdmissibleLayout.accepted {fields : Document.Fields} {layout : Layout}
    (h : AdmissibleLayout defaults fields) (hd : DescribesLayout defaults fields layout) :
    AcceptedLayout layout := by
  have hicon : ∀ icon, layout.icon = some icon → IsIcon icon := fun icon hi =>
    h.givenIcon icon (by rw [hd.icon, hi]; rfl)
  have hchildren := hd.children
  cases hc : layout.children with
  | none =>
      have hv := layout.views_none hc
      refine ⟨hicon, ?_, ?_, ?_⟩
      · rw [hv]
        exact fun key hk => by cases hk
      · rw [hv]
        exact fun node hn => by cases hn
      · rw [hv]
        exact List.nodup_nil
  | some views =>
      have hv := layout.views_some hc
      rw [hc] at hchildren
      obtain ⟨entries, hr, hviews⟩ := hchildren
      have hbelow : viewsBelow fields = viewsAmong entries := by
        rw [viewsBelow_eq, hr]
        exact viewsWithin.eq_1 entries
      have hentries := h.views
      have hnames := h.names
      rw [hbelow] at hentries hnames
      rw [← hv] at hviews
      refine ⟨hicon, fun key hk => ?_, fun node hn => ?_, ?_⟩
      · rw [hviews.keys_eq] at hk
        obtain ⟨entry, he, rfl⟩ := List.mem_map.mp hk
        exact (hentries entry he).1
      · obtain ⟨fields, hf, hdv⟩ := hviews.node_of node hn
        obtain ⟨-, fields', he, hadm⟩ := hentries _ hf
        cases he
        exact hadm.isIcon hdv
      · rw [hviews.keys_eq, List.map_map]
        exact hnames

theorem DescribesLayouts.keys_eq {entries : List (String × Document)} {layouts : Keyed Layout}
    (h : DescribesLayouts defaults entries layouts) : layouts.keys = entries.map Prod.fst := by
  induction h with
  | nil => rfl
  | cons _ _ ih =>
      rw [List.map_cons, ← ih]
      rfl

theorem DescribesLayouts.layout_of {entries : List (String × Document)} {layouts : Keyed Layout}
    (h : DescribesLayouts defaults entries layouts) :
    ∀ entry ∈ layouts, ∃ fields, (entry.1, .map fields) ∈ entries ∧
      DescribesLayout defaults fields entry.2 := by
  induction h with
  | nil => exact fun entry he => by cases he
  | cons hl _ ih =>
      intro entry he
      rcases List.mem_cons.mp he with rfl | he
      · exact ⟨_, List.mem_cons_self, hl⟩
      · obtain ⟨fields, hf, hd⟩ := ih entry he
        exact ⟨fields, List.mem_cons_of_mem _ hf, hd⟩

/-! ## 4. Specifications -/

/-- **What validation gives is accepted.** -/
theorem accepted_of_validate {document : Document} {spec : Spec}
    (h : validate defaults document = .ok spec) : Accepted spec := by
  obtain ⟨hv, rfl⟩ := (validate_eq_ok_iff document spec).mp h
  have hadm := (violations_eq_nil_iff document).mp hv
  obtain ⟨entries, hdoc, hd⟩ := describes_ofDocument hadm
  obtain ⟨entries', he, hn, hl⟩ := hadm
  rw [hdoc] at he
  cases he
  refine ⟨fun key hk => ?_, ?_, fun entry hentry => ?_⟩
  · rw [hd.keys_eq] at hk
    obtain ⟨entry, he, rfl⟩ := List.mem_map.mp hk
    exact (hl entry he).1
  · rw [hd.keys_eq, List.map_map]
    exact hn
  · obtain ⟨fields, hf, hdl⟩ := hd.layout_of entry hentry
    obtain ⟨-, fields', he, hadm⟩ := hl _ hf
    cases he
    exact hadm.accepted hdl

end RouteScaffold.Spec
