import RouteScaffold.Proofs.Routing.NameForms
import RouteScaffold.Proofs.RoutingModule.RoutesObject

/-!
# Imports of specifications that grow

A specification is extended by another whose tour enters the same layouts and views first, and further ones only behind
them (`Spec.ExtendedBy`). The imports are given in the order of the tour, each under a name that is free behind those
before; only the layout names are taken before all, also those of layouts that come later. They take nothing away: no
form of a view's name is a layout name (`layout_ne_form`), and of the names that are taken the forms alone count
(`freeName_congr`).

* `Spec.extendedBy_layouts`, `Spec.extendedBy_views`: layouts behind all others extend a specification, and so do views
  behind all others of the last layout;
* `Spec.ExtendedBy.cons`: an extension, layout by layout;
* `tableOf_begins`: the table of a specification is what that of an extension begins with;
* `imports_kept`: every layout and view has the same import in both, in the same order, whichever layout names are taken
  ahead.
-/

namespace RouteScaffold

/-! ## 1. Extensions -/

/-- What the tour enters: a layout, or a view where it stands. -/
inductive Station where
  | layout (key : String)
  | view (standing : Standing)
  deriving DecidableEq, Repr

namespace Station

/-- The key of what is entered. -/
def key : Station → String
  | layout key => key
  | view standing => standing.key

/-- Is it a view? -/
def isView : Station → Bool
  | layout _ => false
  | view _ => true

end Station

/-- What an event enters, if it enters something. -/
def TourEvent.station? : TourEvent → Option Station
  | .enterLayout key _ => some (.layout key)
  | .enterView standing _ => some (.view standing)
  | _ => none

/-- The views of a forest as the tour enters them. -/
def Views.stations (views : Views) (layout : String) (parent : Option String) (depth : Nat) : List Station :=
  (views.tour layout parent depth).filterMap TourEvent.station?

/-- The layouts and views of a specification as the tour enters them. -/
def Spec.stations (spec : Spec) : List Station := spec.tour.filterMap TourEvent.station?

/-- The second specification has the layouts and views of the first, and further ones only later in the tour. -/
def Spec.ExtendedBy (first second : Spec) : Prop := first.stations <+: second.stations

instance (first second : Spec) : Decidable (first.ExtendedBy second) :=
  inferInstanceAs (Decidable (first.stations <+: second.stations))

theorem Views.isView_of_mem_stations {views : Views} {layout : String} {parent : Option String} {depth : Nat} :
    ∀ station ∈ views.stations layout parent depth, station.isView = true := by
  induction views generalizing parent depth with
  | nil => exact nofun
  | leaf key info rest ih => exact List.forall_mem_cons.mpr ⟨rfl, ih⟩
  | container key info children rest ihc ih =>
      rw [stations, tour, List.filterMap_cons, List.filterMap_append]
      refine List.forall_mem_cons.mpr ⟨rfl, fun station hs => ?_⟩
      exact (List.mem_append.mp hs).elim (ihc station) (ih station)

theorem Views.map_key_stations (views : Views) (layout : String) (parent : Option String) (depth : Nat) :
    (views.stations layout parent depth).map Station.key = views.keys := by
  induction views generalizing parent depth with
  | nil => rfl
  | leaf key info rest ih => exact congrArg (key :: ·) (ih parent depth)
  | container key info children rest ihc ih =>
      rw [keys_container, ← ihc (some key) (depth + 1), ← ih parent depth, ← List.map_append]
      rw [stations, tour, List.filterMap_cons, List.filterMap_append]
      rfl

theorem Layout.stations_tour (key : String) (layout : Layout) :
    (layout.tour key).filterMap TourEvent.station? = .layout key :: layout.views.stations key none 1 := by
  rw [tour, List.filterMap_cons, List.filterMap_append]
  show Station.layout key :: (layout.views.stations key none 1 ++ []) = _
  rw [List.append_nil]

theorem Spec.stations_cons (key : String) (layout : Layout) (rest : Keyed Layout) :
    Spec.stations ⟨(key, layout) :: rest⟩ =
      .layout key :: (layout.views.stations key none 1 ++ Spec.stations ⟨rest⟩) := by
  rw [stations, tour, List.flatMap_cons, List.filterMap_append, Layout.stations_tour]
  rfl

/-- What is entered behind the views of a layout is a layout. -/
theorem Spec.isView_head {layouts : Keyed Layout} {station : Station}
    (h : (Spec.stations ⟨layouts⟩).head? = some station) :
    station.isView = false := by
  cases layouts with
  | nil => cases h
  | cons first rest =>
      rw [stations_cons] at h
      cases h
      rfl

/-- A prefix of two blocks, the first of which ends where the elements are no longer of one kind: either it ends within
    the first block, or it has the whole of it. -/
theorem prefix_blocks {α : Type} {p : α → Bool} {a a' b b' : List α} (ha : ∀ x ∈ a, p x = true)
    (ha' : ∀ x ∈ a', p x = true) (hb : ∀ x, b.head? = some x → p x = false) (hb' : ∀ x, b'.head? = some x → p x = false)
    (h : a ++ b <+: a' ++ b') : (b = [] ∧ a <+: a') ∨ (a = a' ∧ b <+: b') := by
  have hfirst : a <+: a' ++ b' := (List.prefix_append a b).trans h
  rcases List.prefix_or_prefix_of_prefix hfirst (List.prefix_append a' b') with ⟨c, rfl⟩ | ⟨c, rfl⟩
  · rw [List.append_assoc, List.prefix_append_right_inj] at h
    cases b with
    | nil => exact .inl ⟨rfl, List.prefix_append a c⟩
    | cons x b =>
        cases c with
        | nil => exact .inr ⟨(List.append_nil a).symm, h⟩
        | cons y c =>
            obtain rfl := (List.cons_prefix_cons.mp h).1
            have hy := ha' x (List.mem_append_right _ List.mem_cons_self)
            rw [hb x rfl] at hy
            cases hy
  · rw [List.append_assoc, List.prefix_append_right_inj] at h
    cases c with
    | nil => exact .inr ⟨List.append_nil a', h⟩
    | cons y c =>
        obtain ⟨more, rfl⟩ := h
        have hy := ha y (List.mem_append_right _ List.mem_cons_self)
        rw [hb' y rfl] at hy
        cases hy

/-- **An extension, layout by layout**: up to the last layout the views are the same, and there further ones may
    follow. -/
theorem Spec.ExtendedBy.cons {key : String} {layout : Layout} {rest layouts : Keyed Layout}
    (h : ExtendedBy ⟨(key, layout) :: rest⟩ ⟨layouts⟩) : ∃ layout' rest', layouts = (key, layout') :: rest' ∧
      ((rest = [] ∧ layout.views.keys <+: layout'.views.keys) ∨
        (layout.views.keys = layout'.views.keys ∧ ExtendedBy ⟨rest⟩ ⟨rest'⟩)) := by
  unfold ExtendedBy at h
  rw [stations_cons] at h
  cases layouts with
  | nil => exact absurd (List.prefix_nil.mp h) (List.cons_ne_nil _ _)
  | cons entry rest' =>
      obtain ⟨key', layout'⟩ := entry
      rw [stations_cons, List.cons_prefix_cons] at h
      obtain ⟨hkey, hblocks⟩ := h
      cases hkey
      refine ⟨layout', rest', rfl, ?_⟩
      rw [← Views.map_key_stations layout.views key none 1, ← Views.map_key_stations layout'.views key none 1]
      rcases prefix_blocks Views.isView_of_mem_stations Views.isView_of_mem_stations (fun _ => isView_head)
        (fun _ => isView_head) hblocks with ⟨hnil, hprefix⟩ | ⟨he, hrest⟩
      · refine .inl ⟨?_, hprefix.map Station.key⟩
        cases rest with
        | nil => rfl
        | cons entry rest =>
            rw [stations_cons] at hnil
            cases hnil
      · exact .inr ⟨congrArg (List.map Station.key) he, hrest⟩

/-- Layouts behind all others extend a specification, -/
theorem Spec.extendedBy_layouts (layouts more : Keyed Layout) : ExtendedBy ⟨layouts⟩ ⟨layouts ++ more⟩ := by
  unfold ExtendedBy stations tour
  rw [List.flatMap_append, List.filterMap_append]
  exact List.prefix_append _ _

/-- The first views with the second ones behind them. -/
def Views.append : Views → Views → Views
  | .nil, more => more
  | .leaf key info rest, more => .leaf key info (rest.append more)
  | .container key info children rest, more => .container key info children (rest.append more)

theorem Views.stations_append (views more : Views) (layout : String) (parent : Option String) (depth : Nat) :
    (views.append more).stations layout parent depth =
      views.stations layout parent depth ++ more.stations layout parent depth := by
  induction views generalizing parent depth with
  | nil => rfl
  | leaf key info rest ih => exact congrArg (Station.view _ :: ·) (ih parent depth)
  | container key info children rest _ ih =>
      have hrest := ih parent depth
      unfold stations at hrest ⊢
      rw [append, tour, tour, List.filterMap_cons, List.filterMap_append, List.filterMap_cons, hrest,
        List.filterMap_cons, List.filterMap_append, List.filterMap_cons]
      exact congrArg (Station.view _ :: ·) (List.append_assoc _ _ _).symm

/-- and so do views behind all others of the last layout. -/
theorem Spec.extendedBy_views (layouts : Keyed Layout) (key : String) (layout : Layout) (more : Views) :
    ExtendedBy ⟨layouts ++ [(key, layout)]⟩
      ⟨layouts ++ [(key, { layout with children := some (layout.views.append more) })]⟩ := by
  unfold ExtendedBy stations tour
  rw [List.flatMap_append, List.flatMap_append, List.filterMap_append, List.filterMap_append, List.flatMap_singleton,
    List.flatMap_singleton, Layout.stations_tour, Layout.stations_tour]
  refine (List.prefix_append_right_inj _).mpr (List.cons_prefix_cons.mpr ⟨rfl, ?_⟩)
  show _ <+: (layout.views.append more).stations key none 1
  rw [Views.stations_append]
  exact List.prefix_append _ _

namespace Bindings

/-! ## 2. Names that are taken -/

/-- The last character of a form is not that of a layout name. -/
theorem last_form (layout key : String) (n : Nat) :
    ∃ c, (form layout key n).toList.getLast? = some c ∧ c ≠ 't' := by
  have hview : ∀ stem : String, (stem ++ Name.view key).toList.getLast? = some 'w' := by
    intro stem
    rw [Name.view, String.toList_append, String.toList_append, List.getLast?_append, List.getLast?_append]
    rfl
  rcases n with _ | _ | n
  · refine ⟨'w', ?_, by decide⟩
    rw [form, Name.view, String.toList_append, List.getLast?_append]
    rfl
  · exact ⟨'w', hview _, by decide⟩
  · show ∃ c, (form layout key (n + 2)).toList.getLast? = some c ∧ c ≠ 't'
    rw [form, numbered_eq, String.toList_append, List.getLast?_append, hview]
    cases hdigit : (n + 2).repr.toList.getLast? with
    | none => exact ⟨'w', rfl, by decide⟩
    | some c =>
        refine ⟨c, rfl, ?_⟩
        rintro rfl
        have hmem := List.mem_of_getLast? hdigit
        rw [Nat.toList_repr] at hmem
        exact absurd (Nat.isDigit_of_mem_toDigits (by decide) (by decide) hmem) (by decide)

/-- **No view is ever tried under a layout name.** -/
theorem layout_ne_form (k layout key : String) (n : Nat) : Name.layout k ≠ form layout key n := by
  obtain ⟨c, hc, hne⟩ := last_form layout key n
  intro h
  rw [← h, Name.layout, String.toList_append, List.getLast?_append] at hc
  exact hne (Option.some.inj hc).symm

/-- The same forms are taken. -/
def SameForms (taken taken' : List String) : Prop :=
  ∀ layout key n, form layout key n ∈ taken ↔ form layout key n ∈ taken'

theorem SameForms.append {taken taken' : List String} (h : SameForms taken taken') (names : List String) :
    SameForms (names ++ taken) (names ++ taken') := by
  intro layout key n
  rw [List.mem_append, List.mem_append, h layout key n]

/-- Of layout names none is a form. -/
theorem sameForms_layoutNames (keys keys' : List String) :
    SameForms (keys.map Name.layout) (keys'.map Name.layout) := by
  have hnone : ∀ (keys : List String) (layout key : String) (n : Nat), form layout key n ∉ keys.map Name.layout := by
    intro keys layout key n hm
    obtain ⟨k, -, he⟩ := List.mem_map.mp hm
    exact layout_ne_form k layout key n he
  exact fun layout key n => iff_of_false (hnone keys layout key n) (hnone keys' layout key n)

/-- **Which name is free depends on the taken forms alone.** -/
theorem freeName_congr {taken taken' : List String} (h : SameForms taken taken') (layout key : String) :
    freeName taken layout (Name.view key) = freeName taken' layout (Name.view key) := by
  have hfree := freeName_not_mem taken layout (Name.view key)
  have hfree' := freeName_not_mem taken' layout (Name.view key)
  obtain ⟨n, he, hn⟩ := freeName_form taken layout key
  obtain ⟨n', he', hn'⟩ := freeName_form taken' layout key
  rw [he] at hfree ⊢
  rw [he'] at hfree' ⊢
  -- The one that comes first is taken for the other.
  rcases Nat.lt_trichotomy n n' with hlt | rfl | hlt
  · exact absurd ((h layout key n).mpr (hn' n hlt)) hfree
  · rfl
  · exact absurd ((h layout key n').mp (hn n' hlt)) hfree'

/-! ## 3. Tables -/

section Tables

variable {taken taken' : List String}

/-- The imports of views are what those of further views begin with. -/
theorem importsOf_begins (layout : String) {nodes nodes' : List (String × ViewInfo)}
    (hkeys : nodes.map Prod.fst <+: nodes'.map Prod.fst) (h : SameForms taken taken') :
    importsOf layout taken nodes <+: importsOf layout taken' nodes' := by
  induction nodes generalizing nodes' taken taken' with
  | nil => exact List.nil_prefix
  | cons node rest ih =>
      cases nodes' with
      | nil => exact absurd (List.prefix_nil.mp hkeys) (List.cons_ne_nil _ _)
      | cons node' rest' =>
          obtain ⟨hkey, hrest⟩ := List.cons_prefix_cons.mp hkeys
          obtain ⟨key, info⟩ := node
          obtain ⟨key', info'⟩ := node'
          obtain rfl : key = key' := hkey
          simp only [importsOf]
          rw [← freeName_congr h layout key]
          exact List.cons_prefix_cons.mpr ⟨rfl, ih hrest (h.append [_])⟩

theorem importsOf_congr (layout : String) {nodes nodes' : List (String × ViewInfo)}
    (hkeys : nodes.map Prod.fst = nodes'.map Prod.fst) (h : SameForms taken taken') :
    importsOf layout taken nodes = importsOf layout taken' nodes' := by
  have hlength := congrArg List.length hkeys
  rw [← keys_importsOf layout nodes taken, ← keys_importsOf layout nodes' taken', Keyed.keys, Keyed.keys,
    List.length_map, List.length_map] at hlength
  have hprefix : nodes.map Prod.fst <+: nodes'.map Prod.fst := hkeys ▸ List.prefix_rfl
  exact (importsOf_begins layout hprefix h).eq_of_length hlength

/-- **The table depends on the taken forms alone.** -/
theorem tableOf_congr (layouts : Keyed Layout) (h : SameForms taken taken') :
    tableOf taken layouts = tableOf taken' layouts := by
  induction layouts generalizing taken taken' with
  | nil => rfl
  | cons entry rest ih =>
      obtain ⟨key, layout⟩ := entry
      simp only [tableOf]
      rw [importsOf_congr key rfl h, ih (h.append _)]

/-- The second table begins with the first: it may have further views in the last layout, and further layouts. -/
inductive Begins : Bindings → Bindings → Prop
  | layouts (table : Bindings) : Begins [] table
  | views (key : String) (imp : Import) (views more : Keyed Import) (table : Bindings) :
      Begins [(key, ⟨imp, views⟩)] ((key, ⟨imp, views ++ more⟩) :: table)
  | same (entry : String × LayoutImports) {table table' : Bindings} (h : Begins table table') :
      Begins (entry :: table) (entry :: table')

/-- **The table of layouts is what that of an extension begins with.** -/
theorem tableOf_begins {layouts layouts' : Keyed Layout} (h : Spec.ExtendedBy ⟨layouts⟩ ⟨layouts'⟩)
    (ht : SameForms taken taken') : Begins (tableOf taken layouts) (tableOf taken' layouts') := by
  induction layouts generalizing layouts' taken taken' with
  | nil => exact .layouts _
  | cons entry rest ih =>
      obtain ⟨key, layout⟩ := entry
      obtain ⟨layout', rest', rfl, ⟨rfl, hviews⟩ | ⟨hviews, hrest⟩⟩ := h.cons
      · obtain ⟨more, hmore⟩ := importsOf_begins key hviews ht
        simp only [tableOf]
        rw [← hmore]
        exact .views _ _ _ _ _
      · simp only [tableOf]
        rw [importsOf_congr key hviews ht]
        exact .same _ (ih hrest (ht.append _))

end Tables

/-- An import in a table, with the layout and the view that it is for. -/
structure Listed where
  layout : String
  /-- The view; none for the layout itself. -/
  view : Option String
  imp : Import
  deriving DecidableEq, Repr

/-- The imports of a table in order, that of each layout ahead of those of its views. -/
def listed (table : Bindings) : List Listed :=
  table.flatMap fun (layout, imports) =>
    ⟨layout, none, imports.layout⟩ :: imports.views.map fun (key, imp) => ⟨layout, some key, imp⟩

section Begins

variable {table table' : Bindings}

/-- A table that begins with another lists its imports first. -/
theorem Begins.listed (h : Begins table table') : listed table <+: listed table' := by
  induction h with
  | layouts table => exact List.nil_prefix
  | views key imp views more table =>
      simp only [Bindings.listed, List.flatMap_cons, List.flatMap_nil, List.append_nil, List.map_append,
        List.cons_append, List.append_assoc]
      exact List.cons_prefix_cons.mpr ⟨rfl, List.prefix_append _ _⟩
  | same entry _ ih =>
      rw [Bindings.listed, Bindings.listed, List.flatMap_cons, List.flatMap_cons]
      exact (List.prefix_append_right_inj _).mpr ih

/-- What is found among some imports is found among more. -/
theorem get?_append {α : Type} {entries : Keyed α} {key : String} {value : α} (h : entries.get? key = some value)
    (more : Keyed α) : Keyed.get? (entries ++ more) key = some value := by
  unfold Keyed.get? at h ⊢
  rw [List.lookup_append, h]
  rfl

/-- What a table has of a layout, a table that begins with it has too, with further views at most. -/
theorem Begins.get? (h : Begins table table') {key : String} {imports : LayoutImports}
    (hi : Keyed.get? table key = some imports) :
    ∃ more, Keyed.get? table' key = some ⟨imports.layout, imports.views ++ more⟩ := by
  induction h with
  | layouts table => cases hi
  | views k imp views more table =>
      rw [Keyed.get?_cons] at hi ⊢
      by_cases hk : k = key
      · rw [if_pos hk] at hi ⊢
        cases hi
        exact ⟨more, rfl⟩
      · rw [if_neg hk] at hi
        cases hi
  | same entry _ ih =>
      obtain ⟨k, l⟩ := entry
      rw [Keyed.get?_cons] at hi ⊢
      by_cases hk : k = key
      · rw [if_pos hk] at hi ⊢
        cases hi
        exact ⟨[], by rw [List.append_nil]⟩
      · rw [if_neg hk] at hi ⊢
        exact ih hi

theorem Begins.layout? (h : Begins table table') {key : String} {imp : Import} (hi : table.layout? key = some imp) :
    table'.layout? key = some imp := by
  obtain ⟨imports, hfound, rfl⟩ := Option.map_eq_some_iff.mp hi
  obtain ⟨more, hfound'⟩ := h.get? hfound
  unfold Bindings.layout?
  rw [hfound']
  rfl

theorem Begins.view? (h : Begins table table') {layout key : String} {imp : Import}
    (hi : table.view? layout key = some imp) : table'.view? layout key = some imp := by
  obtain ⟨imports, hfound, hview⟩ := Option.bind_eq_some_iff.mp hi
  obtain ⟨more, hfound'⟩ := h.get? hfound
  unfold Bindings.view?
  rw [hfound']
  exact get?_append hview more

end Begins

/-! ## 4. Specifications -/

/-- The table of an accepted specification with other layout names taken ahead. -/
theorem table_reserved {spec : Spec} (h : spec.Accepted) (keys : List String) :
    (spec.tour.foldl Builder.visit ⟨[], keys.map Name.layout⟩).table = ofSpec spec := by
  have hkeys : Fresh (Keyed.keys ([] : Bindings)) spec.layouts.keys := ⟨h.nodup_keys, fun n _ hm => nomatch hm⟩
  have htable := foldl_layouts spec.layouts ⟨[], keys.map Name.layout⟩ hkeys fun entry he =>
    (h.layouts entry he).nodup_keys
  rw [ofSpec_eq h, tableOf_congr spec.layouts (sameForms_layoutNames spec.layouts.keys keys)]
  exact htable

/-- **Imports stay as they are when a specification is extended later in the tour.** The imports of the first
    specification are those that the table of the second lists first; every layout and every view has the same import in
    both. The layout names that are taken ahead change nothing: with those of any keys taken in their place the tables
    are the same. -/
theorem imports_kept {defaults defaults' : Defaults} {document document' : Document} {first second : Spec}
    (hfirst : Spec.validate defaults document = .ok first) (hsecond : Spec.validate defaults' document' = .ok second)
    (hextended : first.ExtendedBy second) :
    listed (ofSpec first) <+: listed (ofSpec second) ∧
    (∀ entry ∈ first.layouts,
      (∃ imp, (ofSpec first).layout? entry.1 = some imp ∧ (ofSpec second).layout? entry.1 = some imp) ∧
      ∀ key ∈ entry.2.views.keys,
        ∃ imp, (ofSpec first).view? entry.1 key = some imp ∧ (ofSpec second).view? entry.1 key = some imp) ∧
    ∀ keys : List String, (first.tour.foldl Builder.visit ⟨[], keys.map Name.layout⟩).table = ofSpec first ∧
      (second.tour.foldl Builder.visit ⟨[], keys.map Name.layout⟩).table = ofSpec second := by
  have ha := Spec.accepted_of_validate hfirst
  have ha' := Spec.accepted_of_validate hsecond
  have hbegins : Begins (ofSpec first) (ofSpec second) := by
    rw [ofSpec_eq ha, ofSpec_eq ha']
    exact tableOf_begins hextended (sameForms_layoutNames _ _)
  refine ⟨hbegins.listed, ?found, fun keys => ⟨table_reserved ha keys, table_reserved ha' keys⟩⟩
  case found =>
    rintro ⟨key, layout⟩ hl
    obtain ⟨imports, he, hkeys⟩ := RoutingModule.exists_imports ha hl
    obtain ⟨hlayout, hviews⟩ := RoutingModule.found_ofSpec ha he
    refine ⟨⟨_, hlayout, hbegins.layout? hlayout⟩, fun k hk => ?_⟩
    rw [← hkeys] at hk
    obtain ⟨view, hv, rfl⟩ := List.mem_map.mp hk
    exact ⟨_, hviews view hv, hbegins.view? (hviews view hv)⟩

/-- A view below the last one, whose name is taken, and a layout behind the last one. -/
theorem kept_behind_two_lists : ∃ first second,
    Spec.validate .standard (.map [("home", .map [("routes", .map [("list", .map [])])]),
      ("admin", .map [("routes", .map [("list", .map [])])])]) = .ok first ∧
    Spec.validate .standard (.map [("home", .map [("routes", .map [("list", .map [])])]),
      ("admin", .map [("routes", .map [("list", .map [("routes", .map [("adminList", .map [])])])])]),
      ("list", .map [])]) = .ok second ∧
    first.ExtendedBy second ∧ listed (ofSpec first) <+: listed (ofSpec second) ∧
    listed (ofSpec first) = [
      ⟨"home", none, "HomeLayout", "../Layouts/HomeLayout/HomeLayout"⟩,
      ⟨"home", some "list", "ListView", "../Views/Home/ListView"⟩,
      ⟨"admin", none, "AdminLayout", "../Layouts/AdminLayout/AdminLayout"⟩,
      ⟨"admin", some "list", "AdminListView", "../Views/Admin/ListView"⟩] ∧
    (ofSpec second).view? "admin" "adminList" = some ⟨"AdminAdminListView", "../Views/Admin/AdminListView"⟩ := by
  have hfirst : Spec.validate .standard (.map [("home", .map [("routes", .map [("list", .map [])])]),
      ("admin", .map [("routes", .map [("list", .map [])])])]) = .ok _ := rfl
  have hsecond : Spec.validate .standard (.map [("home", .map [("routes", .map [("list", .map [])])]),
      ("admin", .map [("routes", .map [("list", .map [("routes", .map [("adminList", .map [])])])])]),
      ("list", .map [])]) = .ok _ := rfl
  exact ⟨_, _, hfirst, hsecond, by decide, (imports_kept hfirst hsecond (by decide)).1, by decide, by decide⟩

end Bindings

end RouteScaffold
