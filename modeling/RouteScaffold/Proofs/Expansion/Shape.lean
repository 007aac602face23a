import RouteScaffold.Proofs.Expansion.Paths
import RouteScaffold.Proofs.Writing.Positions

/-!
# The shape of an expansion

With the built-in texts the planned directories are those of the layouts and, below each, those of its views, in the
same tree (`LaidOut`, `Mirrors`). So the number of planned files is read off the number of layouts and views, and a
directory's files come ahead of those of the directories that hang off it (`Groups.ContainersFirst`). Main statement:
`expansion_mirrors`.
-/

namespace RouteScaffold

/-! ## 1. Files of a plan -/

namespace Groups

/-- The files of a plan are those of its directories, and no directory stands behind one that hangs off it. -/
structure ContainersFirst (g : Groups) : Prop where
  files : g.files = (g.planned [] 0).flatMap Planned.files
  ahead : (g.planned [] 0).Pairwise fun a b => ¬ Position.Covers b.position a.position

theorem files_planned (above : Position) (i : Nat) (g : Groups) :
    g.files = (g.planned above i).flatMap Planned.files := by
  induction g generalizing above i with
  | nil => rfl
  | group directory files nested rest ihn ih =>
      rw [Groups.files, planned, List.flatMap_cons, List.flatMap_append, ← ihn, ← ih, List.append_assoc]

theorem containersFirst (g : Groups) : g.ContainersFirst := ⟨files_planned [] 0 g, pairwise_planned [] 0 g⟩

end Groups

namespace Expansion

/-! ## 2. Views -/

/-- The files of a view with the built-in texts. -/
def builtinViewFiles (layout key : String) (info : ViewInfo) : List Artifact :=
  [⟨component (viewDirectory layout key) (Name.view key), .rendered (Component.view key info.title info.sitemap)⟩,
    ⟨Path.join (viewDirectory layout key) "index.jsx", .rendered (Component.viewIndex key)⟩,
    ⟨stylesheet (viewDirectory layout key) (Name.view key), .empty⟩]

/-- Directories side by side are those of views side by side, in the same order and with the same below them. -/
inductive Mirrors (layout : String) : Views → Groups → Prop
  | nil : Mirrors layout .nil .nil
  | leaf {key : String} {info : ViewInfo} {views : Views} {rest : Groups} (hr : Mirrors layout views rest) :
      Mirrors layout (.leaf key info views)
        (.group (viewDirectory layout key) (builtinViewFiles layout key info) .nil rest)
  | container {key : String} {info : ViewInfo} {children views : Views} {nested rest : Groups}
      (hn : Mirrors layout children nested) (hr : Mirrors layout views rest) :
      Mirrors layout (.container key info children views)
        (.group (viewDirectory layout key) (builtinViewFiles layout key info) nested rest)

theorem viewFiles_builtin (layout key : String) (info : ViewInfo) :
    viewFiles .builtin layout key info = .ok (builtinViewFiles layout key info) := rfl

/-- **The directories of views mirror the views.** -/
theorem mirrors_ofViews (layout : String) (views : Views) :
    ∃ groups, ofViews .builtin layout views = .ok groups ∧ Mirrors layout views groups := by
  induction views with
  | nil => exact ⟨.nil, rfl, .nil⟩
  | leaf key info rest ih =>
      obtain ⟨more, hm, hmirrors⟩ := ih
      have hfiles := viewFiles_builtin layout key info
      exact ⟨_, bind_eq_ok.mpr ⟨_, hfiles, bind_eq_ok.mpr ⟨more, hm, rfl⟩⟩, .leaf hmirrors⟩
  | container key info children rest ihc ih =>
      obtain ⟨nested, hn, hbelow⟩ := ihc
      obtain ⟨more, hm, hmirrors⟩ := ih
      have hfiles := viewFiles_builtin layout key info
      exact ⟨_, bind_eq_ok.mpr ⟨_, hfiles, bind_eq_ok.mpr ⟨nested, hn, bind_eq_ok.mpr ⟨more, hm, rfl⟩⟩⟩,
        .container hbelow hmirrors⟩

theorem Mirrors.count {layout : String} {views : Views} {g : Groups} (h : Mirrors layout views g) :
    g.count = 3 * views.count := by
  induction h with
  | nil => rfl
  | leaf hr ih =>
      rw [Groups.count_group, Groups.count_nil, ih, Views.count, builtinViewFiles]
      simp only [List.length_cons, List.length_nil]
      omega
  | container hn hr ihn ih =>
      rw [Groups.count_group, ihn, ih, Views.count, builtinViewFiles]
      simp only [List.length_cons, List.length_nil]
      omega

/-! ## 3. Layouts -/

/-- A planned directory is that of a layout: two files, the stylesheet a copy exactly for a layout with the sidebar, and
    the directories of its views. -/
structure LaidOut (key : String) (layout : Layout) (b : Branch) : Prop where
  directory : b.directory = layoutDirectory key
  files : b.files =
    [⟨component (layoutDirectory key) (Name.layout key),
        .rendered (if layout.sidebar then Component.sidebarLayout key else Component.layout key)⟩,
      ⟨stylesheet (layoutDirectory key) (Name.layout key),
        if layout.sidebar then .copied Component.sidebarStylesheet else .empty⟩]
  nested : Mirrors key layout.views b.nested

theorem LaidOut.count {key : String} {layout : Layout} {b : Branch} (h : LaidOut key layout b) :
    b.groups.count = 2 + 3 * layout.views.count := by
  rw [Branch.groups, Groups.count_group, Groups.count_nil, h.files, h.nested.count]
  rfl

/-- Directories side by side are those of layouts, in the same order. -/
inductive AllLaidOut : Keyed Layout → Groups → Prop
  | nil : AllLaidOut [] .nil
  | cons {key : String} {layout : Layout} {layouts : Keyed Layout} {b : Branch} {rest : Groups}
      (h : LaidOut key layout b) (hr : AllLaidOut layouts rest) :
      AllLaidOut ((key, layout) :: layouts) (.group b.directory b.files b.nested rest)

theorem AllLaidOut.count {layouts : Keyed Layout} {g : Groups} (h : AllLaidOut layouts g) :
    g.count = 2 * layouts.length + 3 * Spec.viewCount ⟨layouts⟩ := by
  induction h with
  | nil => rfl
  | @cons key layout layouts b rest h hr ih =>
      have hlayout := h.count
      have hviews : Spec.viewCount ⟨(key, layout) :: layouts⟩ = layout.views.count + Spec.viewCount ⟨layouts⟩ := rfl
      rw [Branch.groups, Groups.count_group, Groups.count_nil] at hlayout
      rw [Groups.count_group, ih, List.length_cons, hviews]
      omega

/-- **The planner makes the directory of a layout**: behind the walk no directory is open, and this one is finished. -/
theorem laidOut_ofLayout (key : String) (layout : Layout) : ∃ b, ofLayout .builtin key layout = .ok b ∧
    (layout.walk (Planner.visit .builtin) key).run .start = (.ok (), ⟨[], some b⟩) ∧ LaidOut key layout b := by
  obtain ⟨nested, hn, hmirrors⟩ := mirrors_ofViews key layout.views
  have hfiles : ∃ files, layoutFiles .builtin key layout = .ok files ∧
      LaidOut key layout ⟨layoutDirectory key, files, nested⟩ := by
    unfold layoutFiles Renderer.layout
    cases hs : layout.sidebar with
    | false => exact ⟨_, rfl, rfl, by rw [hs]; rfl, hmirrors⟩
    | true => exact ⟨_, rfl, rfl, by rw [hs]; rfl, hmirrors⟩
  obtain ⟨files, hf, hlaid⟩ := hfiles
  have hrun := Planner.walk_layout_ok hf hn
  refine ⟨_, ?_, hrun, hlaid⟩
  rw [ofLayout, hrun]
  rfl

/-- **The planner makes the directories of the layouts in order.** -/
theorem allLaidOut_ofLayouts (layouts : Keyed Layout) :
    ∃ groups, ofLayouts .builtin layouts = .ok groups ∧ AllLaidOut layouts groups := by
  induction layouts with
  | nil => exact ⟨.nil, rfl, .nil⟩
  | cons entry rest ih =>
      obtain ⟨key, layout⟩ := entry
      obtain ⟨b, hb, -, hlaid⟩ := laidOut_ofLayout key layout
      obtain ⟨more, hm, hrest⟩ := ih
      exact ⟨_, bind_eq_ok.mpr ⟨b, hb, bind_eq_ok.mpr ⟨more, hm, rfl⟩⟩, .cons hlaid hrest⟩

/-- **The expansion of a layout has the tree of its views, and that of a specification those of its layouts in order**;
    the walk ends with an empty stack and a finished directory, and the files are counted by the nodes. -/
theorem expansion_mirrors (key : String) (layout : Layout) (spec : Spec) :
    (∃ b, ofLayout .builtin key layout = .ok b ∧
      (layout.walk (Planner.visit .builtin) key).run .start = (.ok (), ⟨[], some b⟩) ∧ LaidOut key layout b ∧
      b.groups.count = 2 + 3 * layout.views.count ∧ b.groups.ContainersFirst) ∧
    ∃ groups, ofSpec .builtin spec = .ok groups ∧ AllLaidOut spec.layouts groups ∧
      groups.count = 2 * spec.layoutCount + 3 * spec.viewCount ∧ groups.ContainersFirst := by
  obtain ⟨b, hb, hrun, hlaid⟩ := laidOut_ofLayout key layout
  obtain ⟨groups, hg, hall⟩ := allLaidOut_ofLayouts spec.layouts
  exact ⟨⟨b, hb, hrun, hlaid, hlaid.count, b.groups.containersFirst⟩, groups, hg, hall, hall.count,
    groups.containersFirst⟩

end Expansion

end RouteScaffold
