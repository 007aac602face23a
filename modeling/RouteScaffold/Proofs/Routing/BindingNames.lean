import RouteScaffold.Proofs.Routing.Table

/-!
# The names of imports

The names under which layouts and views are imported (`layoutNames`, `viewNames`). Those of layouts are the
layout names; those of views are found free one after the other behind them, so that all differ
(`nodup_names`). All are identifiers, and each bears the capital letter of its ending, which tells it from
words in small letters.
-/

namespace RouteScaffold.Bindings

/-- The names of the imports of layouts. -/
def layoutNames (table : Bindings) : List String := table.values.map fun l => l.layout.binding

/-- The names of the imports of views. -/
def viewNames (table : Bindings) : List String :=
  table.values.flatMap fun l => l.views.values.map Import.binding

/-! ## 1. Names that differ -/

theorem layoutNames_tableOf (layouts : Keyed Layout) (taken : List String) :
    layoutNames (tableOf taken layouts) = layouts.keys.map Name.layout := by
  induction layouts generalizing taken with
  | nil => rfl
  | cons entry rest ih =>
      obtain ⟨key, layout⟩ := entry
      have := ih (namesBack (importsOf key taken layout.views.nodes) ++ taken)
      simp only [layoutNames, Keyed.values, Keyed.keys] at this ⊢
      simp only [tableOf, List.map_cons, this]
      rfl

theorem viewNames_cons (key : String) (layout : Layout) (rest : Keyed Layout) (taken : List String) :
    viewNames (tableOf taken ((key, layout) :: rest)) =
      (importsOf key taken layout.views.nodes).values.map Import.binding ++
        viewNames (tableOf (namesBack (importsOf key taken layout.views.nodes) ++ taken) rest) := by
  simp only [viewNames, tableOf, Keyed.values, List.map_cons, List.flatMap_cons]

/-- Names found one after the other are fresh. -/
theorem fresh_importsOf (layout : String) (nodes : List (String × ViewInfo)) (taken : List String) :
    Fresh taken ((importsOf layout taken nodes).values.map Import.binding) := by
  induction nodes generalizing taken with
  | nil => exact fresh_nil taken
  | cons node rest ih =>
      obtain ⟨key, info⟩ := node
      have hseen : ∀ n, n ∈ freeName taken layout (Name.view key) :: taken ↔
          n ∈ [freeName taken layout (Name.view key)] ∨ n ∈ taken := fun n => by
        rw [List.mem_cons, List.mem_singleton]
      have h := (fresh_append _ hseen).mpr
        ⟨(fresh_singleton taken _).mpr (freeName_not_mem taken layout (Name.view key)), ih _⟩
      exact h

theorem fresh_viewNames (layouts : Keyed Layout) (taken : List String) :
    Fresh taken (viewNames (tableOf taken layouts)) := by
  induction layouts generalizing taken with
  | nil => exact fresh_nil taken
  | cons entry rest ih =>
      obtain ⟨key, layout⟩ := entry
      rw [viewNames_cons]
      refine (fresh_append _ fun n => ?_).mpr ⟨fresh_importsOf key layout.views.nodes taken, ih _⟩
      rw [List.mem_append, namesBack, List.mem_reverse]

/-- **The names of all imports differ.** -/
theorem nodup_names {spec : Spec} (h : spec.Accepted) :
    (layoutNames (ofSpec spec) ++ viewNames (ofSpec spec)).Nodup := by
  rw [ofSpec_eq h, layoutNames_tableOf]
  obtain ⟨hn, hf⟩ := fresh_viewNames spec.layouts (spec.layouts.keys.map Name.layout)
  exact List.nodup_append.mpr ⟨h.names, hn, fun a ha b hb e => hf b hb (e ▸ ha)⟩

/-! ## 2. Identifiers with a capital letter -/

/-- An identifier with one of the letters that the endings begin with. -/
def Marked (name : String) : Prop := Name.Fragment name ∧ ('L' ∈ name.toList ∨ 'V' ∈ name.toList)

theorem marked_layout {key : String} (h : Name.Fragment key) : Marked (Name.layout key) := by
  refine ⟨h.layout, .inl ?_⟩
  rw [Name.layout, String.toList_append]
  exact List.mem_append_right _ (by decide)

theorem marked_view {key : String} (h : Name.Fragment key) : Marked (Name.view key) := by
  refine ⟨h.view, .inr ?_⟩
  rw [Name.view, String.toList_append]
  exact List.mem_append_right _ (by decide)

/-- What stands ahead of a marked name leaves it marked, if it is an identifier. -/
theorem Marked.behind {stem name : String} (h : Marked name) (hs : Name.Fragment stem) :
    Marked (stem ++ name) := by
  refine ⟨hs.append h.1.follow, ?_⟩
  rw [String.toList_append]
  exact h.2.imp (List.mem_append_right _) (List.mem_append_right _)

theorem Marked.numbered {name : String} (h : Marked name) (n : Nat) : Marked (numbered name n) := by
  rw [numbered_eq]
  refine ⟨h.1.append fun d hd => .inr ?_, ?_⟩
  · rw [Nat.toList_repr] at hd
    have := Nat.isDigit_of_mem_toDigits (by decide) (by decide) hd
    simpa [Char.isDigit, Char.le_def] using this
  · rw [String.toList_append]
    exact h.2.imp (List.mem_append_left _) (List.mem_append_left _)

theorem marked_freeName {layout key : String} (taken : List String) (hl : Name.Fragment layout)
    (hk : Name.Fragment key) : Marked (freeName taken layout (Name.view key)) := by
  have hstem := (marked_view hk).behind hl.capitalize
  rcases freeName_cases taken layout (Name.view key) with ⟨-, he⟩ | ⟨-, -, he⟩ | ⟨-, -, n, he, -⟩
  · rw [he]
    exact marked_view hk
  · rw [he]
    exact hstem
  · rw [he]
    exact hstem.numbered n

theorem marked_importsOf {layout : String} (hl : Name.Fragment layout) (nodes : List (String × ViewInfo))
    (hk : ∀ node ∈ nodes, Name.Fragment node.1) (taken : List String) :
    ∀ name ∈ (importsOf layout taken nodes).values.map Import.binding, Marked name := by
  induction nodes generalizing taken with
  | nil => exact fun name hn => by cases hn
  | cons node rest ih =>
      rw [List.forall_mem_cons] at hk
      intro name hn
      rcases List.mem_cons.mp hn with rfl | hn
      · exact marked_freeName taken hl hk.1
      · exact ih hk.2 _ name hn

/-- **The names of all imports are marked.** -/
theorem marked_names {spec : Spec} (h : spec.Accepted) :
    ∀ name ∈ layoutNames (ofSpec spec) ++ viewNames (ofSpec spec), Marked name := by
  intro name hn
  rw [ofSpec_eq h] at hn
  rcases List.mem_append.mp hn with hn | hn
  · rw [layoutNames_tableOf] at hn
    obtain ⟨key, hk, rfl⟩ := List.mem_map.mp hn
    exact marked_layout (h.keys key hk)
  · obtain ⟨l, hl, hn⟩ := List.mem_flatMap.mp hn
    obtain ⟨⟨key, l'⟩, he, rfl⟩ := List.mem_map.mp hl
    obtain ⟨layout, before, hlayout, rfl⟩ := mem_tableOf he
    exact marked_importsOf (h.keys key (List.mem_map_of_mem hlayout)) _
      (fun node hnode => (h.layouts _ hlayout).viewKeys _ (List.mem_map_of_mem hnode)) before name hn

end RouteScaffold.Bindings
