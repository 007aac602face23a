import RouteScaffold.Proofs.Routing.Attempts
import RouteScaffold.Proofs.Routing.BindingNames

/-!
# The forms of imported names

A layout is imported under its layout name. A view may be imported under several names, which are tried one after the
other (`form`): its view name, that name with the layout ahead, and the latter with the numbers from 2 on. The first one
is taken that no layout and no earlier view has (`HasForm`).

* `freeName_form`: the search for a free name passes over taken forms only;
* `inForm_namedViews`: what holds of each name of the table, view by view;
* `names_in_forms`: all names of an accepted specification differ, are identifiers that the routing module does not bind
  itself, and have the first form that was free.
-/

namespace RouteScaffold.Bindings

/-! ## 1. Forms -/

/-- The names that a view may be imported under, in the order in which they are tried. -/
def form (layout key : String) : Nat → String
  | 0 => Name.view key
  | 1 => Name.capitalize layout ++ Name.view key
  | n + 2 => numbered (Name.capitalize layout ++ Name.view key) (n + 2)

theorem form_eq (layout key : String) (n : Nat) :
    form layout key n = (Attempt.nth n).text layout (Name.view key) := by
  match n with
  | 0 => rfl
  | 1 => rfl
  | n + 2 => rfl

/-- **A free name is the first form that is not taken.** -/
theorem freeName_form (taken : List String) (layout key : String) :
    ∃ n, freeName taken layout (Name.view key) = form layout key n ∧ ∀ m < n, form layout key m ∈ taken := by
  simp only [form_eq]
  exact freeName_attempt taken layout (Name.view key)

/-! ## 2. Views behind views -/

/-- An imported view and the name it is imported under. -/
structure NamedView where
  layout : String
  key : String
  name : String
  deriving DecidableEq, Repr

/-- The imported views of a layout in order. -/
def namedOf (layout : String) (views : Keyed Import) : List NamedView :=
  views.map fun (key, imp) => ⟨layout, key, imp.binding⟩

/-- The imported views of a table in order. -/
def namedViews (table : Bindings) : List NamedView :=
  table.flatMap fun (layout, imports) => namedOf layout imports.views

/-- The name is a form of the view all of whose earlier forms are bound. -/
def HasForm (bound : List String) (view : NamedView) : Prop :=
  ∃ n, view.name = form view.layout view.key n ∧ ∀ m < n, form view.layout view.key m ∈ bound

/-- Each name has the first form that is free behind the names before it. -/
def InForm : List String → List NamedView → Prop
  | _, [] => True
  | bound, view :: rest => HasForm bound view ∧ InForm (view.name :: bound) rest

theorem inForm_append (a b : List NamedView) (bound : List String) :
    InForm bound (a ++ b) ↔ InForm bound a ∧ InForm ((a.map NamedView.name).reverse ++ bound) b := by
  induction a generalizing bound with
  | nil => exact (Iff.of_eq (true_and _)).symm
  | cons view rest ih =>
      rw [List.cons_append, InForm, InForm, ih, and_assoc, List.map_cons, List.reverse_cons, List.append_assoc]
      rfl

/-- What is bound counts, not in which order. -/
theorem HasForm.of_mem {bound bound' : List String} {view : NamedView} (h : HasForm bound view)
    (hb : ∀ name ∈ bound, name ∈ bound') : HasForm bound' view := by
  obtain ⟨n, he, hn⟩ := h
  exact ⟨n, he, fun m hm => hb _ (hn m hm)⟩

theorem InForm.hasForm {bound : List String} {before after : List NamedView} {view : NamedView}
    (h : InForm bound (before ++ view :: after)) : HasForm (bound ++ before.map NamedView.name) view := by
  rw [inForm_append] at h
  refine h.2.1.of_mem fun name hm => ?_
  rw [List.mem_append, List.mem_reverse] at hm
  exact List.mem_append.mpr hm.symm

/-! ## 3. The table -/

theorem names_namedOf (layout : String) (views : Keyed Import) :
    (namedOf layout views).map NamedView.name = views.values.map Import.binding := by
  rw [namedOf, Keyed.values, List.map_map, List.map_map]
  rfl

/-- The views of a layout have their forms behind the names taken before. -/
theorem inForm_importsOf (layout : String) (nodes : List (String × ViewInfo)) (taken : List String) :
    InForm taken (namedOf layout (importsOf layout taken nodes)) := by
  induction nodes generalizing taken with
  | nil => trivial
  | cons node rest ih => exact ⟨freeName_form taken layout node.1, ih _⟩

/-- **The views of all layouts have their forms** behind the names taken at the outset. -/
theorem inForm_namedViews (layouts : Keyed Layout) (taken : List String) :
    InForm taken (namedViews (tableOf taken layouts)) := by
  induction layouts generalizing taken with
  | nil => trivial
  | cons entry rest ih =>
      obtain ⟨key, layout⟩ := entry
      have hcons : namedViews (tableOf taken ((key, layout) :: rest)) =
          namedOf key (importsOf key taken layout.views.nodes) ++
            namedViews (tableOf (namesBack (importsOf key taken layout.views.nodes) ++ taken) rest) := rfl
      rw [hcons, inForm_append, names_namedOf]
      exact ⟨inForm_importsOf key layout.views.nodes taken, ih _⟩

/-- The table has every view of every layout, in order. -/
theorem keys_namedViews (layouts : Keyed Layout) (taken : List String) :
    (namedViews (tableOf taken layouts)).map (fun view => (view.layout, view.key)) =
      layouts.flatMap fun entry => entry.2.views.keys.map fun key => (entry.1, key) := by
  induction layouts generalizing taken with
  | nil => rfl
  | cons entry rest ih =>
      obtain ⟨key, layout⟩ := entry
      have hviews : (namedOf key (importsOf key taken layout.views.nodes)).map (fun view => (view.layout, view.key)) =
          layout.views.keys.map fun k => (key, k) := by
        rw [Views.keys, ← keys_importsOf key layout.views.nodes taken, namedOf, Keyed.keys, List.map_map, List.map_map]
        rfl
      rw [List.flatMap_cons, ← hviews, ← ih (namesBack (importsOf key taken layout.views.nodes) ++ taken),
        ← List.map_append]
      rfl

theorem names_namedViews (table : Bindings) : (namedViews table).map NamedView.name = viewNames table := by
  rw [namedViews, viewNames, Keyed.values, List.map_flatMap, List.flatMap_map]
  exact congrArg table.flatMap (funext fun entry => names_namedOf entry.1 entry.2.views)

/-- The name of a layout's import is the layout name. -/
theorem layoutName_of_mem {layouts : Keyed Layout} {taken : List String} {entry : String × LayoutImports}
    (h : entry ∈ tableOf taken layouts) : entry.2.layout.binding = Name.layout entry.1 := by
  obtain ⟨layout, before, -, he⟩ := mem_tableOf h
  rw [he]
  rfl

/-! ## 4. The names of a specification -/

/-- The capital letter of an import's name tells it from the names that the routing module binds itself. -/
theorem Marked.not_reserved {name : String} (h : Marked name) : name ∉ Spec.reservedNames := by
  have hreserved : ∀ name ∈ Spec.reservedNames, 'L' ∉ name.toList ∧ 'V' ∉ name.toList := by decide
  intro hn
  obtain ⟨hl, hv⟩ := hreserved name hn
  exact h.2.elim hl hv

/-- **The names of imports and their forms.** Layouts have their layout names; the names of the views are, in the order
    of the specification, the first form that neither a layout nor an earlier view has. All differ and are identifiers
    that the routing module does not bind itself. -/
theorem names_in_forms {defaults : Defaults} {document : Document} {spec : Spec}
    (h : Spec.validate defaults document = .ok spec) :
    (layoutNames (ofSpec spec) ++ (namedViews (ofSpec spec)).map NamedView.name).Nodup ∧
    (∀ name ∈ layoutNames (ofSpec spec) ++ (namedViews (ofSpec spec)).map NamedView.name,
      Name.Fragment name ∧ name ∉ Spec.reservedNames) ∧
    (ofSpec spec).keys = spec.layouts.keys ∧
    (∀ entry ∈ ofSpec spec, entry.2.layout.binding = Name.layout entry.1) ∧
    ((namedViews (ofSpec spec)).map fun view => (view.layout, view.key)) =
      spec.layouts.flatMap (fun entry => entry.2.views.keys.map fun key => (entry.1, key)) ∧
    ∀ before view after, namedViews (ofSpec spec) = before ++ view :: after →
      HasForm (layoutNames (ofSpec spec) ++ before.map NamedView.name) view := by
  have ha := Spec.accepted_of_validate h
  have hnames := names_namedViews (ofSpec spec)
  refine ⟨?differ, ?identifiers, ?layouts, ?layoutForms, ?views, ?viewForms⟩
  case differ =>
    rw [hnames]
    exact nodup_names ha
  case identifiers =>
    intro name hn
    rw [hnames] at hn
    have hm := marked_names ha name hn
    exact ⟨hm.1, hm.not_reserved⟩
  case layouts => rw [ofSpec_eq ha, keys_tableOf]
  case layoutForms =>
    intro entry he
    rw [ofSpec_eq ha] at he
    exact layoutName_of_mem he
  case views => rw [ofSpec_eq ha, keys_namedViews]
  case viewForms =>
    intro before view after he
    have hforms := inForm_namedViews spec.layouts (spec.layouts.keys.map Name.layout)
    rw [← ofSpec_eq ha, he] at hforms
    rw [ofSpec_eq ha, layoutNames_tableOf]
    exact hforms.hasForm

/-- Views of one key in three layouts, and a view whose own name another would have got: all three forms occur. -/
theorem three_lists_in_forms : ∃ spec,
    Spec.validate .standard (.map [
      ("home", .map [("routes", .map [("list", .map []), ("adminList", .map [("routes", .map [("a", .map [])])])])]),
      ("admin", .map [("routes", .map [("list", .map [])])]),
      ("shop", .map [("routes", .map [("list", .map [])])])]) = .ok spec ∧
    namedViews (ofSpec spec) = [⟨"home", "list", "ListView"⟩, ⟨"home", "adminList", "AdminListView"⟩,
      ⟨"home", "a", "AView"⟩, ⟨"admin", "list", "AdminListView2"⟩, ⟨"shop", "list", "ShopListView"⟩] ∧
    HasForm ["HomeLayout", "AdminLayout", "ShopLayout", "ListView", "AdminListView", "AView"]
      ⟨"admin", "list", "AdminListView2"⟩ := by
  have h : Spec.validate .standard (.map [
      ("home", .map [("routes", .map [("list", .map []), ("adminList", .map [("routes", .map [("a", .map [])])])])]),
      ("admin", .map [("routes", .map [("list", .map [])])]),
      ("shop", .map [("routes", .map [("list", .map [])])])]) = .ok _ := rfl
  obtain ⟨-, -, -, -, -, hforms⟩ := names_in_forms h
  exact ⟨_, h, by decide, hforms [⟨"home", "list", "ListView"⟩, ⟨"home", "adminList", "AdminListView"⟩,
    ⟨"home", "a", "AView"⟩] ⟨"admin", "list", "AdminListView2"⟩ [⟨"shop", "list", "ShopListView"⟩] (by decide)⟩

end RouteScaffold.Bindings
