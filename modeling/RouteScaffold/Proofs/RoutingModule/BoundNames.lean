import RouteScaffold.Proofs.Routing.BindingNames
import RouteScaffold.Proofs.Routing.Icons
import RouteScaffold.Proofs.RoutingModule.TopNames

/-!
# The names that the routing module binds

Read off its text, the names that the routing module of an accepted specification binds at its top level are the
router's `Route`, the icons, the names of the imports of layouts and of views, and the names of its running part
(`boundNames`, `topNames_text`). Nothing of the literal of the routes is bound, all its lines being indented.
-/

namespace RouteScaffold.RoutingModule

/-- The names that the running part binds. -/
def runtimeNames : List String :=
  ["joinPath", "buildPaths", "buildElementTree", "buildSitemap", "paths", "routeComponents", "sitemap"]

/-- The names that the routing module binds, in the order of its text. -/
def boundNames (spec : Spec) : List String :=
  "Route" :: (IconSet.ofSpec spec).icons ++
    (Bindings.layoutNames (Bindings.ofSpec spec) ++ Bindings.viewNames (Bindings.ofSpec spec)) ++
    "routes" :: runtimeNames

/-! ## 1. The literal -/

theorem oneLine_blanks (n : Nat) : OneLine (String.join (List.replicate n "  ")) := by
  induction n with
  | zero => decide
  | succ n ih =>
      rw [List.replicate_succ, String.join_cons]
      exact OneLine.append (by decide) ih

/-- A line below the margin is indented. -/
theorem indented_line (depth : Nat) {text : String} (h : OneLine text) : Indented (line (depth + 1) text) := by
  refine ⟨(oneLine_blanks (depth + 1)).append h,
    ' ' :: ((String.join (List.replicate depth "  ")).toList ++ text.toList), ?_⟩
  rw [line, List.replicate_succ, String.join_cons, String.toList_append, String.toList_append]
  rfl

theorem indented_fieldLine (depth : Nat) {name value : String} (hn : OneLine name) (hv : OneLine value) :
    Indented (fieldLine (depth + 1) name value) :=
  indented_line depth (((hn.append (by decide)).append hv).append (by decide))

theorem oneLine_tagText {component : String} (h : OneLine component) : OneLine (tagText component) :=
  (OneLine.append (by decide) h).append (by decide)

theorem indented_openLines (depth : Nat) {key element : String} (path title : String) (hk : OneLine key)
    (he : OneLine element) : ∀ l ∈ openLines (depth + 1) key path element title, Indented l := by
  unfold openLines
  simp only [List.forall_mem_cons]
  exact ⟨indented_line depth (hk.append (by decide)),
    indented_fieldLine (depth + 1) (by decide) (oneLine_quote path),
    indented_fieldLine (depth + 1) (by decide) (oneLine_tagText he),
    indented_fieldLine (depth + 1) (by decide) (oneLine_quote title), fun l hl => by cases hl⟩

theorem indented_closeLine (depth : Nat) : Indented (closeLine (depth + 1)) := indented_line depth (by decide)

theorem indented_routesLine (depth : Nat) : Indented (routesLine (depth + 1)) := indented_line depth (by decide)

section Lines

variable {bindings : Bindings}
  (hb : ∀ name ∈ Bindings.layoutNames bindings ++ Bindings.viewNames bindings, Name.Fragment name)
include hb

/-- The component of a view, found or not, is one line. -/
theorem oneLine_elementOf (layout key : String) : OneLine (elementOf bindings layout key) := by
  unfold elementOf
  cases hview : bindings.view? layout key with
  | none => exact (by decide : OneLine "")
  | some imp =>
      obtain ⟨l, hl, himp⟩ := Option.bind_eq_some_iff.mp hview
      refine oneLine_fragment (hb _ (List.mem_append_right _ (List.mem_flatMap.mpr ⟨l, ?_, ?_⟩)))
      · exact List.mem_map_of_mem (f := Prod.snd) (Keyed.mem_of_get? hl)
      · exact List.mem_map_of_mem (List.mem_map_of_mem (f := Prod.snd) (Keyed.mem_of_get? himp))

theorem oneLine_layoutElement (key : String) :
    OneLine (((bindings.layout? key).map Import.binding).getD "") := by
  cases hlayout : bindings.layout? key with
  | none => exact (by decide : OneLine "")
  | some imp =>
      obtain ⟨l, hl, rfl⟩ := Option.map_eq_some_iff.mp hlayout
      refine oneLine_fragment (hb _ (List.mem_append_left _ ?_))
      exact List.mem_map_of_mem (List.mem_map_of_mem (f := Prod.snd) (Keyed.mem_of_get? hl))

/-- **The lines of views are indented**, at every depth. -/
theorem indented_viewLines (layout : String) (views : Views) (depth : Nat)
    (hv : ∀ node ∈ views.nodes, Name.Fragment node.1 ∧ Spec.IsIcon node.2.icon) :
    ∀ l ∈ viewLines bindings layout (depth + 1) views, Indented l := by
  induction views generalizing depth with
  | nil => exact fun l hl => by cases hl
  | leaf key info rest ih =>
      rw [Views.nodes, List.forall_mem_cons] at hv
      obtain ⟨⟨hk, hi⟩, hrest⟩ := hv
      rw [viewLines, List.forall_mem_append, List.forall_mem_cons, List.forall_mem_cons]
      exact ⟨indented_openLines depth _ _ (oneLine_fragment hk) (oneLine_elementOf hb layout key),
        indented_fieldLine _ (by decide) (oneLine_tagText (oneLine_fragment hi.1)),
        indented_closeLine depth, ih depth hrest⟩
  | container key info children rest ihc ih =>
      rw [Views.nodes, List.forall_mem_cons, List.forall_mem_append] at hv
      obtain ⟨⟨hk, hi⟩, hchildren, hrest⟩ := hv
      rw [viewLines, List.forall_mem_append, List.forall_mem_cons, List.forall_mem_cons,
        List.forall_mem_append, List.forall_mem_cons, List.forall_mem_cons]
      exact ⟨indented_openLines depth _ _ (oneLine_fragment hk) (oneLine_elementOf hb layout key),
        indented_fieldLine _ (by decide) (oneLine_tagText (oneLine_fragment hi.1)),
        indented_routesLine _, ihc (depth + 2) hchildren, indented_closeLine _, indented_closeLine depth,
        ih depth hrest⟩

theorem indented_layoutLines {key : String} {layout : Layout} (hk : Name.Fragment key)
    (h : Spec.AcceptedLayout layout) : ∀ l ∈ layoutLines bindings key layout, Indented l := by
  unfold layoutLines
  simp only [List.forall_mem_append]
  refine ⟨⟨⟨?opening, ?icon⟩, ?below⟩, ?closing⟩
  case opening => exact indented_openLines 0 _ _ (oneLine_fragment hk) (oneLine_layoutElement hb key)
  case icon =>
    intro l hl
    obtain ⟨icon, hi, rfl⟩ := Option.map_eq_some_iff.mp (Option.mem_toList.mp hl)
    exact indented_fieldLine 1 (by decide) (oneLine_tagText (oneLine_fragment (h.icon icon hi).1))
  case below =>
    cases hc : layout.children with
    | none => exact fun l hl => by cases hl
    | some views =>
        have hviews := layout.views_some hc
        have hkeys := h.viewKeys
        have hicons := h.viewIcons
        rw [hviews] at hkeys hicons
        simp only [List.forall_mem_cons, List.forall_mem_append]
        refine ⟨indented_routesLine 1, indented_viewLines hb key views 2 fun node hn => ?_,
          indented_closeLine 1, fun l hl => by cases hl⟩
        exact ⟨hkeys _ (List.mem_map_of_mem hn), hicons node hn⟩
  case closing =>
    intro l hl
    rw [List.mem_singleton.mp hl]
    exact indented_closeLine 0

end Lines

/-- **The statement of the routes binds only them.** -/
theorem topNames_routes {spec : Spec} (h : spec.Accepted) :
    topNames ("const routes = " ++ literal spec (Bindings.ofSpec spec) ++ ";") = ["routes"] := by
  have hb := fun name hn => (Bindings.marked_names h name hn).1
  unfold literal
  split
  · decide
  · have hinner : (spec.layouts.flatMap fun entry => layoutLines (Bindings.ofSpec spec) entry.1 entry.2).flatMap
        topNames = [] := by
      refine List.flatMap_eq_nil_iff.mpr fun l hl => ?_
      obtain ⟨⟨key, layout⟩, he, hl⟩ := List.mem_flatMap.mp hl
      exact (indented_layoutLines hb (h.keys key (List.mem_map_of_mem he)) (h.layouts _ he) l hl).topNames
    refine (topNames_intercalate "const routes = " ";" "\x7b" "\x7d" _).trans ?_
    rw [hinner]
    decide

/-! ## 2. Imports -/

/-- An import whose line binds its name. -/
structure Importable (i : Import) : Prop where
  binding : Name.Fragment i.binding
  source : Plain i.source

/-- **The line of an import binds its name.** -/
theorem topNames_importLine {i : Import} (h : Importable i) : topNames (importLine i) = [i.binding] := by
  have hline : OneLine (importLine i) :=
    (((OneLine.append (by decide) (oneLine_fragment h.binding)).append (by decide)).append h.source.oneLine).append
      (by decide)
  have hlist : (importLine i).toList =
      ("import ").toList ++ (i.binding.toList ++ ' ' :: (("from \"").toList ++ i.source.toList ++ ("\";").toList)) := by
    simp only [importLine, String.toList_append, List.append_assoc]
    rfl
  have hbrace : after? "import \x7b" (importLine i).toList = none := by
    obtain ⟨c, rest, hc, hstart, -⟩ := h.binding
    have hne : '{' ≠ c := by
      rintro rfl
      exact absurd ((Name.isIdentifierStart_iff '{').mpr hstart) (by decide)
    rw [hlist, hc]
    unfold after?
    rw [if_neg]
    simp [List.isPrefixOf, hne]
  have hword : (["import ", "const ", "function "].findSome? fun word => after? word (importLine i).toList) =
      some (i.binding.toList ++ ' ' :: (("from \"").toList ++ i.source.toList ++ ("\";").toList)) := by
    rw [List.findSome?_cons, hlist, after?_append]
  rw [topNames_line hline, lineNames, hbrace]
  simp only
  rw [hword]
  simp only
  rw [identifiers_cons h.binding (by decide)]
  rfl

theorem topNames_importLines {imports : List Import} (h : ∀ i ∈ imports, Importable i) :
    (imports.map importLine).flatMap topNames = imports.map Import.binding := by
  induction imports with
  | nil => rfl
  | cons i rest ih =>
      rw [List.forall_mem_cons] at h
      rw [List.map_cons, List.flatMap_cons, topNames_importLine h.1, ih h.2]
      rfl

/-- The imports of an accepted specification can stand in the module, and so can the headings of their views. -/
theorem importable_ofSpec {spec : Spec} (h : spec.Accepted) :
    ∀ entry ∈ Bindings.ofSpec spec, Importable entry.2.layout ∧ OneLine (Name.capitalize entry.1) ∧
      ∀ i ∈ entry.2.views.values, Importable i := by
  have hnames := fun name hn => (Bindings.marked_names h name hn).1
  rintro ⟨key, imports⟩ he
  have hvalue : imports ∈ (Bindings.ofSpec spec).values := List.mem_map_of_mem (f := Prod.snd) he
  have hlayoutName : imports.layout.binding ∈ Bindings.layoutNames (Bindings.ofSpec spec) :=
    List.mem_map_of_mem hvalue
  have hviewName : ∀ i ∈ imports.views.values, i.binding ∈ Bindings.viewNames (Bindings.ofSpec spec) :=
    fun i hi => List.mem_flatMap.mpr ⟨imports, hvalue, List.mem_map_of_mem hi⟩
  have he' := he
  rw [Bindings.ofSpec_eq h] at he'
  obtain ⟨layout, before, hl, himp⟩ := Bindings.mem_tableOf he'
  have hkey : Name.Fragment key := h.keys key (List.mem_map_of_mem hl)
  have hname := plain_fragment hkey.layout
  have hcap := plain_fragment hkey.capitalize
  refine ⟨⟨hnames _ (List.mem_append_left _ hlayoutName), ?_⟩, hcap.oneLine, fun i hi =>
    ⟨hnames _ (List.mem_append_right _ (hviewName i hi)), ?_⟩⟩
  · rw [himp]
    show Plain ("../Layouts/" ++ Name.layout key ++ "/" ++ Name.layout key)
    exact ((Plain.append (by decide) hname).append (by decide)).append hname
  · rw [himp] at hi
    obtain ⟨view, hv, rfl⟩ := List.mem_map.mp hi
    have hview : view.1 ∈ layout.views.keys := by
      have := List.mem_map_of_mem (f := Prod.fst) hv
      rw [← Keyed.keys, Bindings.keys_importsOf] at this
      exact this
    rw [Bindings.source_of_mem hv]
    have hviewKey := (h.layouts _ hl).viewKeys _ hview
    exact ((Plain.append (by decide) hcap).append (by decide)).append (plain_fragment hviewKey.view)

/-- The lines of the views of a layout bind the names of the views. -/
theorem topNames_viewImports {g : ViewImports} (hl : OneLine (Name.capitalize g.layout))
    (h : ∀ i ∈ g.views, Importable i) : g.lines.flatMap topNames = g.views.map Import.binding := by
  have hline : OneLine ("// " ++ Name.capitalize g.layout ++ " Views") :=
    (OneLine.append (by decide) hl).append (by decide)
  have hhead : topNames ("// " ++ Name.capitalize g.layout ++ " Views") = [] := by
    rw [topNames_line hline, String.toList_append, String.toList_append, List.append_assoc]
    rfl
  rw [ViewImports.lines, List.flatMap_cons, List.flatMap_cons, hhead, topNames_importLines h]
  rfl

/-- **The lines of the views of all layouts bind the names of the views**; a layout without views has none. -/
theorem topNames_viewGroups (table : Bindings)
    (h : ∀ entry ∈ table, OneLine (Name.capitalize entry.1) ∧ ∀ i ∈ entry.2.views.values, Importable i) :
    (((table.filter fun (_, l) => !l.views.isEmpty).map fun (key, l) =>
      (⟨key, l.views.values⟩ : ViewImports)).flatMap ViewImports.lines).flatMap topNames =
        Bindings.viewNames table := by
  induction table with
  | nil => rfl
  | cons entry rest ih =>
      obtain ⟨key, l⟩ := entry
      rw [List.forall_mem_cons] at h
      have hnames : Bindings.viewNames ((key, l) :: rest) =
          l.views.values.map Import.binding ++ Bindings.viewNames rest := rfl
      have ih := ih h.2
      have hviews := topNames_viewImports (g := ⟨key, l.views.values⟩) h.1.1 h.1.2
      rw [List.filter_cons]
      by_cases hv : l.views = []
      · rw [if_neg (fun hne => by simp [hv] at hne), ih, hnames, hv]
        rfl
      · have hpos : (!l.views.isEmpty) = true := by simp [hv]
        rw [if_pos hpos, List.map_cons, List.flatMap_cons, List.flatMap_append, ih, hnames, hviews]

/-! ## 3. Icons -/

/-- The characters of an import list are those of its names, commas and blanks. -/
theorem mem_importList {names : List String} (h : ∀ name ∈ names, Name.Fragment name) {c : Char}
    (hc : c ∈ (", ".intercalate names).toList) : Name.Follow c ∨ c = ',' ∨ c = ' ' := by
  induction names with
  | nil => cases hc
  | cons name rest ih =>
      rw [List.forall_mem_cons] at h
      cases rest with
      | nil =>
          rw [String.intercalate_singleton] at hc
          exact .inl (h.1.follow c hc)
      | cons next more =>
          have hsep : (", ").toList = [',', ' '] := rfl
          rw [String.intercalate_cons_cons, String.toList_append, String.toList_append, hsep, List.mem_append,
            List.mem_append, List.mem_cons, List.mem_singleton] at hc
          rcases hc with (hc | hc) | hc
          · exact .inl (h.1.follow c hc)
          · exact .inr hc
          · exact ih h.2 hc

theorem not_mem_importList {names : List String} (h : ∀ name ∈ names, Name.Fragment name) {c : Char}
    (hc : Name.isIdentifierRest c = false ∧ c ≠ ',' ∧ c ≠ ' ') : c ∉ (", ".intercalate names).toList := by
  intro hm
  rcases mem_importList h hm with hf | hf | hf
  · rw [← Name.isIdentifierRest_iff, hc.1] at hf
    cases hf
  · exact hc.2.1 hf
  · exact hc.2.2 hf

/-- **The lines of the icons bind the icons.** -/
theorem topNames_iconLines {p : Parts} {icons : List String} (h : ∀ icon ∈ icons, Name.Fragment icon)
    (hi : p.icons = ", ".intercalate icons) (hp : OneLine p.iconPackage) : p.iconLines.flatMap topNames = icons := by
  have hnames := identifiers_importList h
  unfold Parts.iconLines
  split
  · next hempty =>
    rw [← hi, String.isEmpty_iff.mp hempty] at hnames
    exact hnames
  · have hone : OneLine p.icons := by
      rw [hi]
      exact not_mem_importList h (by decide)
    have hline : OneLine ("import \x7b " ++ p.icons ++ " \x7d from \"" ++ p.iconPackage ++ "\";") :=
      (((OneLine.append (by decide) hone).append (by decide)).append hp).append (by decide)
    have hlist : ("import \x7b " ++ p.icons ++ " \x7d from \"" ++ p.iconPackage ++ "\";").toList =
        ("import \x7b").toList ++ ((' ' :: (p.icons.toList ++ [' '])) ++
          '}' :: ((" from \"").toList ++ p.iconPackage.toList ++ ("\";").toList)) := by
      simp only [String.toList_append, List.append_assoc, List.cons_append]
      rfl
    have hbefore : ∀ c ∈ ' ' :: (p.icons.toList ++ [' ']), (c != '}') = true := by
      intro c hc
      rw [List.mem_cons, List.mem_append, List.mem_singleton, hi] at hc
      rw [bne_iff_ne]
      rintro rfl
      rcases hc with hc | hc | hc
      · cases hc
      · exact not_mem_importList h (by decide) hc
      · cases hc
    have hicons : topNames ("import \x7b " ++ p.icons ++ " \x7d from \"" ++ p.iconPackage ++ "\";") = icons := by
      rw [topNames_line hline, lineNames, hlist, after?_append]
      simp only
      rw [List.takeWhile_append_of_pos hbefore, List.takeWhile_cons_of_neg (by decide), List.append_nil,
        identifiers_skip (by decide), hi, hnames]
    have hhead : topNames "" ++ topNames "// Icons" = [] := by decide
    rw [List.flatMap_cons, List.flatMap_cons, List.flatMap_cons, hicons, ← List.append_assoc, hhead]
    exact List.append_nil icons

/-! ## 4. The whole text -/

/-- The names of a line that is given by its characters. -/
theorem topNames_ofList (chars : List Char) (rest : List String) :
    (String.ofList chars :: rest).flatMap topNames =
      (linesFrom [] chars).flatMap lineNames ++ rest.flatMap topNames := by
  rw [List.flatMap_cons, topNames, String.toList_ofList]

theorem topNames_runtimeText : topNames runtimeText = runtimeNames := by
  unfold runtimeText
  rw [topNames_unlines]
  simp only [String.reduceAppend]
  -- Line by line the literal becomes its characters: taking it apart by evaluation is slow.
  repeat rw [topNames_ofList]
  decide +kernel

/-- **The names that the text of the routing module binds.** -/
theorem topNames_text {spec : Spec} (h : spec.Accepted) {iconPackage : String} (hp : OneLine iconPackage) :
    topNames (Parts.ofSpec iconPackage spec).text = boundNames spec := by
  have himports := importable_ofSpec h
  have hroute : topNames "import \x7b Route \x7d from \"react-router-dom\";" = ["Route"] := by decide
  have hicons := topNames_iconLines (p := Parts.ofSpec iconPackage spec)
    (fun icon hi => (IconSet.isIcon_of_mem h hi).1) rfl hp
  have hlayouts : ((Parts.ofSpec iconPackage spec).layouts.map importLine).flatMap topNames =
      Bindings.layoutNames (Bindings.ofSpec spec) := by
    have hl : ∀ i ∈ (Parts.ofSpec iconPackage spec).layouts, Importable i := by
      intro i hi
      obtain ⟨l, hl, rfl⟩ := List.mem_map.mp hi
      obtain ⟨entry, he, rfl⟩ := List.mem_map.mp hl
      exact (himports entry he).1
    rw [topNames_importLines hl]
    exact List.map_map
  have hviews : ((Parts.ofSpec iconPackage spec).viewGroups.flatMap ViewImports.lines).flatMap topNames =
      Bindings.viewNames (Bindings.ofSpec spec) :=
    topNames_viewGroups (Bindings.ofSpec spec) fun entry he => (himports entry he).2
  have hroutes := topNames_routes h
  have hblank : topNames "" = [] := by decide
  have hheading : topNames "// Layouts" = [] := by decide
  have hend : (Parts.ofSpec iconPackage spec).runtime = runtimeText := rfl
  have hliteral : (Parts.ofSpec iconPackage spec).routes = literal spec (Bindings.ofSpec spec) := rfl
  rw [Parts.text, topNames_unlines, hend, hliteral]
  simp only [List.flatMap_append, List.flatMap_cons, List.flatMap_nil, hroute, hicons, hlayouts, hviews, hroutes,
    hblank, hheading, topNames_runtimeText, List.append_nil, List.nil_append]
  simp only [boundNames, List.append_assoc, List.cons_append, List.nil_append]

end RouteScaffold.RoutingModule
