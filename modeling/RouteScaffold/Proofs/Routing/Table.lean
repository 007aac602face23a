import RouteScaffold.Proofs.Routing.FreeName
import RouteScaffold.Proofs.Schema.Accepted

/-!
# The table of imports, layout by layout

`Bindings.ofSpec` builds its table from the events of the tour, setting keys as it goes. For an accepted
specification no key is set twice, so that the table is what one writes down going through the layouts
(`tableOf`) and through the nodes of each (`importsOf`): `ofSpec_eq`.
-/

namespace RouteScaffold.Bindings

/-! ## 1. The table written down -/

/-- The imports of nodes of a layout in order, each under a name that is free behind those before. -/
def importsOf (layout : String) : List String → List (String × ViewInfo) → Keyed Import
  | _, [] => []
  | taken, (key, _) :: rest =>
    let name := freeName taken layout (Name.view key)
    (key, ⟨name, viewSource layout key⟩) :: importsOf layout (name :: taken) rest

/-- The names of imports, the last first. -/
def namesBack (imports : Keyed Import) : List String := (imports.values.map Import.binding).reverse

/-- The imports of layouts in order, the names of one being taken for those behind. -/
def tableOf : List String → Keyed Layout → Bindings
  | _, [] => []
  | taken, (key, layout) :: rest =>
    let imports := importsOf key taken layout.views.nodes
    (key, ⟨layoutImport key, imports⟩) :: tableOf (namesBack imports ++ taken) rest

theorem namesBack_cons (layout key : String) (info : ViewInfo) (taken : List String)
    (rest : List (String × ViewInfo)) :
    namesBack (importsOf layout taken ((key, info) :: rest)) ++ taken =
      namesBack (importsOf layout (freeName taken layout (Name.view key) :: taken) rest) ++
        freeName taken layout (Name.view key) :: taken := by
  simp [namesBack, importsOf, Keyed.values]

theorem keys_importsOf (layout : String) (nodes : List (String × ViewInfo)) (taken : List String) :
    (importsOf layout taken nodes).keys = nodes.map Prod.fst := by
  induction nodes generalizing taken with
  | nil => rfl
  | cons node rest ih =>
      have := ih (freeName taken layout (Name.view node.1) :: taken)
      simp only [Keyed.keys] at this
      simp only [importsOf, Keyed.keys, List.map_cons, this]

theorem source_of_mem {layout : String} {nodes : List (String × ViewInfo)} {taken : List String}
    {view : String × Import} (h : view ∈ importsOf layout taken nodes) :
    view.2.source = viewSource layout view.1 := by
  induction nodes generalizing taken with
  | nil => cases h
  | cons node rest ih =>
      rcases List.mem_cons.mp h with rfl | h
      · rfl
      · exact ih h

theorem keys_tableOf (layouts : Keyed Layout) (taken : List String) :
    (tableOf taken layouts).keys = layouts.keys := by
  induction layouts generalizing taken with
  | nil => rfl
  | cons entry rest ih =>
      obtain ⟨key, layout⟩ := entry
      have := ih (namesBack (importsOf key taken layout.views.nodes) ++ taken)
      simp only [Keyed.keys] at this
      simp only [tableOf, Keyed.keys, List.map_cons, this]

/-- Each entry of the table has the imports of a layout. -/
theorem mem_tableOf {layouts : Keyed Layout} {taken : List String} {key : String} {imports : LayoutImports}
    (h : (key, imports) ∈ tableOf taken layouts) :
    ∃ layout before, (key, layout) ∈ layouts ∧
      imports = ⟨layoutImport key, importsOf key before layout.views.nodes⟩ := by
  induction layouts generalizing taken with
  | nil => cases h
  | cons entry rest ih =>
      obtain ⟨k, layout⟩ := entry
      rcases List.mem_cons.mp h with he | h
      · cases he
        exact ⟨layout, taken, List.mem_cons_self, rfl⟩
      · obtain ⟨l, before, hl, he⟩ := ih h
        exact ⟨l, before, List.mem_cons_of_mem _ hl, he⟩

/-! ## 2. Views -/

/-- Takes in a node of a layout. -/
def Builder.enter (layout : String) (b : Builder) (node : String × ViewInfo) : Builder :=
  b.visit (.enterView ⟨layout, node.1, none, 1⟩ ⟨node.2, none⟩)

/-- Of the tour of views only the nodes count. -/
theorem foldl_tour (layout : String) (views : Views) (parent : Option String) (depth : Nat) (b : Builder) :
    (views.tour layout parent depth).foldl Builder.visit b = views.nodes.foldl (Builder.enter layout) b := by
  induction views generalizing parent depth b with
  | nil => rfl
  | leaf key info rest ih =>
      show (rest.tour layout parent depth).foldl Builder.visit (b.enter layout (key, info)) = _
      rw [ih]
      rfl
  | container key info children rest ihc ih =>
      rw [Views.tour, List.foldl_cons, List.foldl_append, ihc, List.foldl_cons, ih, Views.nodes,
        List.foldl_cons, List.foldl_append]
      rfl

/-- Adding a view changes the last layout of a table that has it only there. -/
theorem addView_last (table : Bindings) (layout key : String) (l : LayoutImports) (imp : Import)
    (h : layout ∉ table.keys) :
    addView (table ++ [(layout, l)]) layout key imp =
      table ++ [(layout, { l with views := l.views.set key imp })] := by
  have hmap : addView table layout key imp = table := by
    unfold addView
    refine (List.map_congr_left fun entry he => ?_).trans (List.map_id table)
    have hk : entry.1 ≠ layout := fun e => h (e ▸ List.mem_map_of_mem he)
    exact if_neg hk
  unfold addView at hmap ⊢
  rw [List.map_append, hmap]
  simp

/-- **The nodes of the last layout are added behind its views**, each under a name that is free then. -/
theorem foldl_enter (table : Bindings) (layout : String) (imp : Import) (h : layout ∉ table.keys)
    (nodes : List (String × ViewInfo)) (views : Keyed Import) (taken : List String)
    (hn : Fresh views.keys (nodes.map Prod.fst)) :
    nodes.foldl (Builder.enter layout) ⟨table ++ [(layout, ⟨imp, views⟩)], taken⟩ =
      ⟨table ++ [(layout, ⟨imp, views ++ importsOf layout taken nodes⟩)],
        namesBack (importsOf layout taken nodes) ++ taken⟩ := by
  induction nodes generalizing views taken with
  | nil =>
      rw [importsOf, List.append_nil]
      rfl
  | cons node rest ih =>
      obtain ⟨key, info⟩ := node
      have hseen : ∀ n, n ∈ (views ++ [(key, (⟨freeName taken layout (Name.view key),
          viewSource layout key⟩ : Import))] : Keyed Import).keys ↔ n ∈ [key] ∨ n ∈ views.keys := by
        intro n
        simp only [Keyed.keys, List.map_append, List.map_cons, List.map_nil, List.mem_append]
        exact or_comm
      rw [List.map_cons, ← List.singleton_append, fresh_append _ hseen, fresh_singleton] at hn
      have henter : Builder.enter layout ⟨table ++ [(layout, ⟨imp, views⟩)], taken⟩ (key, info) =
          ⟨table ++ [(layout, ⟨imp, views ++ [(key, ⟨freeName taken layout (Name.view key),
            viewSource layout key⟩)]⟩)], freeName taken layout (Name.view key) :: taken⟩ := by
        unfold Builder.enter Builder.visit Builder.claim
        simp only
        rw [addView_last table layout key _ _ h]
        simp only
        rw [Keyed.set_of_not_mem _ _ _ hn.1]
      rw [List.foldl_cons, henter, ih _ _ hn.2, namesBack_cons, importsOf, List.append_assoc]
      rfl

/-! ## 3. Layouts -/

/-- A layout is added behind the table with the imports of its views. -/
theorem foldl_layout (b : Builder) (key : String) (layout : Layout) (h : key ∉ b.table.keys)
    (hn : layout.views.keys.Nodup) :
    (layout.tour key).foldl Builder.visit b =
      ⟨b.table ++ [(key, ⟨layoutImport key, importsOf key b.taken layout.views.nodes⟩)],
        namesBack (importsOf key b.taken layout.views.nodes) ++ b.taken⟩ := by
  have hset : Builder.visit b (.enterLayout key layout) =
      ⟨b.table ++ [(key, ⟨layoutImport key, []⟩)], b.taken⟩ := by
    unfold Builder.visit
    simp only
    rw [Keyed.set_of_not_mem _ _ _ h]
  have hfresh : Fresh (Keyed.keys ([] : Keyed Import)) (layout.views.nodes.map Prod.fst) :=
    ⟨hn, fun n _ hm => by cases hm⟩
  rw [Layout.tour, List.foldl_cons, List.foldl_append, hset, foldl_tour,
    foldl_enter b.table key (layoutImport key) h _ _ _ hfresh]
  rfl

theorem foldl_layouts (layouts : Keyed Layout) (b : Builder) (hk : Fresh b.table.keys layouts.keys)
    (hn : ∀ entry ∈ layouts, entry.2.views.keys.Nodup) :
    ((layouts.flatMap fun entry => entry.2.tour entry.1).foldl Builder.visit b).table =
      b.table ++ tableOf b.taken layouts := by
  induction layouts generalizing b with
  | nil => exact (List.append_nil _).symm
  | cons entry rest ih =>
      obtain ⟨key, layout⟩ := entry
      have hseen : ∀ (l : LayoutImports) (n : String), n ∈ Keyed.keys (b.table ++ [(key, l)]) ↔
          n ∈ [key] ∨ n ∈ b.table.keys := by
        intro l n
        simp only [Keyed.keys, List.map_append, List.map_cons, List.map_nil, List.mem_append]
        exact or_comm
      have hkeys : Fresh b.table.keys ([key] ++ Keyed.keys rest) := hk
      rw [fresh_append _ (hseen ⟨layoutImport key, importsOf key b.taken layout.views.nodes⟩),
        fresh_singleton] at hkeys
      rw [List.forall_mem_cons] at hn
      rw [List.flatMap_cons, List.foldl_append, foldl_layout b key layout hkeys.1 hn.1, ih _ hkeys.2 hn.2,
        tableOf, List.append_assoc]
      rfl

/-- **The table of an accepted specification.** -/
theorem ofSpec_eq {spec : Spec} (h : spec.Accepted) :
    ofSpec spec = tableOf (spec.layouts.keys.map Name.layout) spec.layouts :=
  foldl_layouts spec.layouts ⟨[], spec.layouts.keys.map Name.layout⟩
    ⟨h.nodup_keys, fun n _ hm => by cases hm⟩ fun entry he => (h.layouts entry he).nodup_keys

end RouteScaffold.Bindings
