import RouteScaffold.Proofs.RoutingModule.Reader
import RouteScaffold.Renderer

/-!
# The routing module loses nothing

A routing module is read statement by statement (`Contents.read`): the import statements under the comments that head
them, up to the object literal of the routes. Of the text that is written for an accepted specification the reader gives
back the import list of the icons, the imports of the layouts, the imports of the views layout by layout, and an object
for the routes in which every node has its key, path, title, component, icon and the nodes below it (`read_back`),
whatever characters stand in paths and titles.
-/

namespace RouteScaffold.RoutingModule

open Script

/-! ## 1. The reader -/

/-- A statement by which a module takes in what another one exports. -/
inductive ImportStatement where
  | named (names : List String) (source : String)
  | whole (i : Import)
  deriving DecidableEq, Repr

/-- What is read off a routing module. -/
structure Contents where
  /-- The import statements by the comment that heads them; those ahead of all comments stand under the empty one. -/
  sections : Keyed (List ImportStatement)
  /-- The members of the object of the routes. -/
  routes : Members

mutual

/-- Reads the statements of a module up to the routes. Of the sections read already the last stands first. -/
def readStatements : List (String × List ImportStatement) → List Token → Option Contents
  | sections, .comment heading :: rest => readStatements ((heading, []) :: sections) rest
  | sections, .word "import" :: .mark '{' :: rest => readNames sections [] rest
  | (heading, found) :: sections,
      .word "import" :: .word binding :: .word "from" :: .text source :: .mark ';' :: rest =>
    readStatements ((heading, found ++ [.whole ⟨binding, source⟩]) :: sections) rest
  | sections, .word "const" :: .word "routes" :: .mark '=' :: .mark '{' :: rest =>
    match readMembers [] [] rest with
    | some (routes, .mark ';' :: _) => some ⟨sections.reverse, routes⟩
    | _ => none
  | _, _ => none

/-- Reads on within a list of imported names, of which some are read already. -/
def readNames : List (String × List ImportStatement) → List String → List Token → Option Contents
  | sections, names, .word name :: .mark ',' :: rest => readNames sections (names ++ [name]) rest
  | (heading, found) :: sections, names,
      .word name :: .mark '}' :: .word "from" :: .text source :: .mark ';' :: rest =>
    readStatements ((heading, found ++ [.named (names ++ [name]) source]) :: sections) rest
  | _, _, _ => none

end

namespace Contents

/-- Reads a routing module. -/
def read (text : String) : Option Contents := readStatements [("", [])] (tokens text)

/-- The import statements under a heading. -/
def under (c : Contents) (heading : String) : List ImportStatement := (c.sections.get? heading).getD []

end Contents

/-! ## 2. Imports -/

theorem tokens_importLine {i : Import} (h : Importable i) : tokens (importLine i) =
    [.word "import", .word i.binding, .word "from", .text i.source, .mark ';'] := by
  have himport : Name.Fragment "import" := (Name.isIdentifier_iff "import").mp (by decide)
  have hfrom : Name.Fragment "from" := (Name.isIdentifier_iff "from").mp (by decide)
  have hline : OneLine (importLine i) :=
    (((OneLine.append (by decide) (oneLine_fragment h.binding)).append (by decide)).append h.source.oneLine).append
      (by decide)
  have hlist : (importLine i).toList = ("import").toList ++ ' ' :: (i.binding.toList ++ ' ' :: (("from").toList ++
      ' ' :: '"' :: (i.source.toList ++ '"' :: [';']))) := by
    simp only [importLine, String.toList_append, List.append_assoc]
    rfl
  rw [tokens, byLine_line _ hline, lineTokens, hlist, tokensFrom_word himport (by decide), tokensFrom_space,
    tokensFrom_word h.binding (by decide), tokensFrom_space, tokensFrom_word hfrom (by decide), tokensFrom_space,
    tokensFrom_plain h.source]
  rfl

/-- **The lines of imports are read as the imports.** -/
theorem readStatements_importLines {imports : List Import} (h : ∀ i ∈ imports, Importable i) (heading : String)
    (found : List ImportStatement) (sections : List (String × List ImportStatement)) (rest : List Token) :
    readStatements ((heading, found) :: sections) ((imports.map importLine).flatMap tokens ++ rest) =
      readStatements ((heading, found ++ imports.map .whole) :: sections) rest := by
  induction imports generalizing found with
  | nil =>
      rw [List.map_nil, List.map_nil, List.append_nil]
      rfl
  | cons i more ih =>
      rw [List.forall_mem_cons] at h
      rw [List.map_cons, List.flatMap_cons, tokens_importLine h.1, List.append_assoc]
      refine (ih h.2 (found ++ [.whole i])).trans ?_
      rw [List.append_assoc]
      rfl

/-- The tokens of an import list are its names with commas between them. -/
theorem tokensFrom_importList {names : List String} (h : ∀ name ∈ names, Name.Fragment name) (rest : List Char) :
    tokensFrom .between ((", ".intercalate names).toList ++ ' ' :: rest) =
      (names.map Token.word).intersperse (.mark ',') ++ tokensFrom .between rest := by
  induction names with
  | nil => rfl
  | cons name more ih =>
      rw [List.forall_mem_cons] at h
      cases more with
      | nil =>
          rw [String.intercalate_singleton, tokensFrom_word h.1 (by decide), tokensFrom_space]
          rfl
      | cons next more =>
          have hsep : (", ").toList = [',', ' '] := rfl
          rw [String.intercalate_cons_cons, String.toList_append, String.toList_append, hsep, List.append_assoc,
            List.append_assoc, List.cons_append, tokensFrom_word h.1 (by decide)]
          refine congrArg (fun tail => Token.word name :: Token.mark ',' :: tail) ?_
          exact ih h.2

/-- An import list is read as its names. -/
theorem readNames_importList {names : List String} (hne : names ≠ []) (heading source : String)
    (found : List ImportStatement) (sections : List (String × List ImportStatement)) (before : List String)
    (rest : List Token) :
    readNames ((heading, found) :: sections) before ((names.map Token.word).intersperse (.mark ',') ++
        .mark '}' :: .word "from" :: .text source :: .mark ';' :: rest) =
      readStatements ((heading, found ++ [.named (before ++ names) source]) :: sections) rest := by
  induction names generalizing before with
  | nil => exact absurd rfl hne
  | cons name more ih =>
      cases more with
      | nil => rfl
      | cons next more =>
          refine (ih (List.cons_ne_nil _ _) (before ++ [name])).trans ?_
          rw [List.append_assoc, List.singleton_append]

/-- What stands under the heading of the icons, if there are icons. -/
def iconSections (iconPackage : String) (icons : List String) : Keyed (List ImportStatement) :=
  if icons = [] then [] else [(" Icons", [.named icons iconPackage])]

theorem reverse_iconSections (iconPackage : String) (icons : List String) :
    (iconSections iconPackage icons).reverse = iconSections iconPackage icons := by
  unfold iconSections
  split <;> rfl

/-- **The lines of the icons are read as a section with their import list.** -/
theorem readStatements_iconLines {p : Parts} {icons : List String} (h : ∀ icon ∈ icons, Name.Fragment icon)
    (hi : p.icons = ", ".intercalate icons) (hp : Plain p.iconPackage)
    (sections : List (String × List ImportStatement)) (rest : List Token) :
    readStatements sections (p.iconLines.flatMap tokens ++ rest) =
      readStatements (iconSections p.iconPackage icons ++ sections) rest := by
  have hempty : p.icons.isEmpty = true ↔ icons = [] := by
    rw [hi, String.isEmpty_iff]
    refine ⟨fun he => ?_, fun he => he ▸ rfl⟩
    have hnames := identifiers_importList h
    rw [he] at hnames
    exact hnames.symm
  unfold Parts.iconLines iconSections
  by_cases hne : icons = []
  · rw [if_pos (hempty.mpr hne), if_pos hne]
    rfl
  · rw [if_neg fun he => hne (hempty.mp he), if_neg hne]
    have himport : Name.Fragment "import" := (Name.isIdentifier_iff "import").mp (by decide)
    have hfrom : Name.Fragment "from" := (Name.isIdentifier_iff "from").mp (by decide)
    have hone : OneLine p.icons := by
      rw [hi]
      exact not_mem_importList h (by decide)
    have hline : OneLine ("import \x7b " ++ p.icons ++ " \x7d from \"" ++ p.iconPackage ++ "\";") :=
      (((OneLine.append (by decide) hone).append (by decide)).append hp.oneLine).append (by decide)
    have hlist : ("import \x7b " ++ p.icons ++ " \x7d from \"" ++ p.iconPackage ++ "\";").toList =
        ("import").toList ++ ' ' :: '{' :: ' ' :: ((", ".intercalate icons).toList ++ ' ' :: '}' :: ' ' ::
          (("from").toList ++ ' ' :: '"' :: (p.iconPackage.toList ++ '"' :: [';']))) := by
      simp only [hi, String.toList_append, List.append_assoc]
      rfl
    have hopen : ∀ tail, tokensFrom .between (' ' :: '{' :: ' ' :: tail) =
        .mark '{' :: tokensFrom .between tail := fun _ => rfl
    have hclose : ∀ tail, tokensFrom .between ('}' :: ' ' :: tail) = .mark '}' :: tokensFrom .between tail :=
      fun _ => rfl
    have htokens : tokens ("import \x7b " ++ p.icons ++ " \x7d from \"" ++ p.iconPackage ++ "\";") =
        .word "import" :: .mark '{' :: ((icons.map Token.word).intersperse (.mark ',') ++
          .mark '}' :: .word "from" :: .text p.iconPackage :: [.mark ';']) := by
      rw [tokens, byLine_line _ hline, lineTokens, hlist, tokensFrom_word himport (by decide), hopen,
        tokensFrom_importList h, hclose, tokensFrom_word hfrom (by decide), tokensFrom_space, tokensFrom_plain hp]
      rfl
    have hhead : tokens "" ++ tokens "// Icons" = [.comment " Icons"] := by decide
    have hread := readNames_importList hne " Icons" p.iconPackage [] sections [] rest
    rw [List.flatMap_cons, List.flatMap_cons, List.flatMap_cons, List.flatMap_nil, htokens, ← List.append_assoc,
      hhead, List.append_nil, List.singleton_append, List.cons_append, List.cons_append, List.cons_append,
      List.append_assoc]
    exact hread

/-! ## 3. Views layout by layout -/

/-- The heading of the views of a layout. -/
def viewsHeading (layout : String) : String := " " ++ Name.capitalize layout ++ " Views"

/-- The section of the views of a layout. -/
def ViewImports.section (g : ViewImports) : String × List ImportStatement :=
  (viewsHeading g.layout, g.views.map .whole)

/-- The imports of views by layouts that have views. -/
def viewGroups (table : Bindings) : List ViewImports :=
  (table.filter fun (_, l) => !l.views.isEmpty).map fun (key, l) => ⟨key, l.views.values⟩

/-- What can stand under a heading of its own. -/
structure Groupable (g : ViewImports) : Prop where
  heading : OneLine (Name.capitalize g.layout)
  views : ∀ i ∈ g.views, Importable i

/-- The lines of the views of a layout are read as a section. -/
theorem readStatements_viewImports {g : ViewImports} (h : Groupable g) (sections : List (String × List ImportStatement))
    (rest : List Token) : readStatements sections (g.lines.flatMap tokens ++ rest) =
      readStatements (g.section :: sections) rest := by
  have hline : OneLine ("// " ++ Name.capitalize g.layout ++ " Views") :=
    (OneLine.append (by decide) h.heading).append (by decide)
  have hlist : ("// " ++ Name.capitalize g.layout ++ " Views").toList =
      '/' :: '/' :: (viewsHeading g.layout).toList := by
    simp only [viewsHeading, String.toList_append, List.append_assoc]
    rfl
  have hhead : tokens ("// " ++ Name.capitalize g.layout ++ " Views") = [.comment (viewsHeading g.layout)] := by
    rw [tokens, byLine_line _ hline, lineTokens, hlist, tokensFrom_comment]
  rw [ViewImports.lines, List.flatMap_cons, List.flatMap_cons, hhead, List.append_assoc, List.append_assoc]
  exact readStatements_importLines h.views (viewsHeading g.layout) [] sections rest

/-- **The lines of the views of all layouts are read as sections**, the last of them first. -/
theorem readStatements_viewGroups {groups : List ViewImports} (h : ∀ g ∈ groups, Groupable g)
    (sections : List (String × List ImportStatement)) (rest : List Token) :
    readStatements sections ((groups.flatMap ViewImports.lines).flatMap tokens ++ rest) =
      readStatements ((groups.map ViewImports.section).reverse ++ sections) rest := by
  induction groups generalizing sections with
  | nil => rfl
  | cons g more ih =>
      rw [List.forall_mem_cons] at h
      rw [List.flatMap_cons, List.flatMap_append, List.append_assoc, readStatements_viewImports h.1, ih h.2,
        List.map_cons, List.reverse_cons, List.append_assoc, List.singleton_append]

theorem viewGroups_cons (key : String) (l : LayoutImports) (rest : Bindings) :
    viewGroups ((key, l) :: rest) =
      if l.views = [] then viewGroups rest else ⟨key, l.views.values⟩ :: viewGroups rest := by
  unfold viewGroups
  rw [List.filter_cons]
  by_cases hv : l.views = []
  · rw [if_neg (fun hne => by simp [hv] at hne), if_pos hv]
  · have hpos : (!l.views.isEmpty) = true := by simp [hv]
    rw [if_pos hpos, if_neg hv, List.map_cons]

/-- A group is that of a layout in the table. -/
theorem mem_viewGroups {table : Bindings} {g : ViewImports} (h : g ∈ viewGroups table) :
    ∃ l, (g.layout, l) ∈ table ∧ g.views = l.views.values := by
  obtain ⟨⟨key, l⟩, he, rfl⟩ := List.mem_map.mp h
  exact ⟨l, (List.mem_filter.mp he).1, rfl⟩

/-- The heading of no layout in the table heads no section. -/
theorem get?_section_none {table : Bindings} {heading : String}
    (h : heading ∉ (Keyed.keys table).map viewsHeading) :
    Keyed.get? ((viewGroups table).map ViewImports.section) heading = none := by
  refine (Keyed.get?_eq_none_iff _ _).mpr fun hk => h ?_
  obtain ⟨entry, he, rfl⟩ := List.mem_map.mp hk
  obtain ⟨g, hg, rfl⟩ := List.mem_map.mp he
  obtain ⟨l, hl, -⟩ := mem_viewGroups hg
  exact List.mem_map_of_mem (f := viewsHeading) (List.mem_map_of_mem (f := Prod.fst) hl)

/-- **Where headings differ, the imports of a layout's views are what stands under its heading**; under that of a
    layout without views stands nothing. -/
theorem get?_section {table : Bindings} (hn : ((Keyed.keys table).map viewsHeading).Nodup) {key : String}
    {imports : LayoutImports} (hm : (key, imports) ∈ table) :
    (Keyed.get? ((viewGroups table).map ViewImports.section) (viewsHeading key)).getD [] =
      imports.views.values.map .whole := by
  induction table with
  | nil => cases hm
  | cons entry rest ih =>
      obtain ⟨k, l⟩ := entry
      obtain ⟨hk, hrest⟩ := List.nodup_cons.mp hn
      rw [viewGroups_cons]
      rcases List.mem_cons.mp hm with he | hm
      · cases he
        by_cases hv : imports.views = []
        · rw [if_pos hv, get?_section_none hk, hv]
          rfl
        · rw [if_neg hv, List.map_cons, ViewImports.section, Keyed.get?_cons, if_pos rfl]
          rfl
      · have hkey : viewsHeading key ∈ (Keyed.keys rest).map viewsHeading :=
          List.mem_map_of_mem (f := viewsHeading) (List.mem_map_of_mem (f := Prod.fst) hm)
        have hne : viewsHeading k ≠ viewsHeading key := fun e => hk (e ▸ hkey)
        by_cases hv : l.views = []
        · rw [if_pos hv, ih hrest hm]
        · rw [if_neg hv, List.map_cons, ViewImports.section, Keyed.get?_cons, if_neg hne, ih hrest hm]

/-! ## 4. The routes -/

/-- The names of the components of an accepted specification are words. -/
theorem fragment_names {spec : Spec} (h : spec.Accepted) {entry : String × LayoutImports}
    (he : entry ∈ Bindings.ofSpec spec) :
    Name.Fragment entry.2.layout.binding ∧ ∀ view ∈ entry.2.views, Name.Fragment view.2.binding := by
  obtain ⟨hlayout, -, hviews⟩ := importable_ofSpec h entry he
  exact ⟨hlayout.binding, fun view hv => (hviews _ (List.mem_map_of_mem (f := Prod.snd) hv)).binding⟩

/-- The views of an accepted specification can stand in the literal. -/
theorem spellable_ofSpec {spec : Spec} (h : spec.Accepted) {key : String} {layout : Layout}
    (hl : (key, layout) ∈ spec.layouts) : Name.Fragment (layoutElementOf (Bindings.ofSpec spec) key) ∧
      ∀ node ∈ layout.views.nodes, Spellable (Bindings.ofSpec spec) key node := by
  obtain ⟨imports, he, hkeys⟩ := exists_imports h hl
  have hnamed := named_ofSpec h _ he
  have hnames := fragment_names h he
  refine ⟨hnamed.layout ▸ hnames.1, fun node hn => ⟨?_, ?_, ?_⟩⟩
  · exact (h.layouts _ hl).viewKeys _ (List.mem_map_of_mem hn)
  · have hkey : node.1 ∈ imports.views.keys := by
      rw [hkeys]
      exact List.mem_map_of_mem (f := Prod.fst) hn
    obtain ⟨view, hv, hk⟩ := List.mem_map.mp hkey
    rw [← hk, hnamed.views view hv]
    exact hnames.2 view hv
  · exact ((h.layouts _ hl).viewIcons _ hn).1

/-- The lines of layouts are read as the members that stand for them. -/
theorem readMembers_layouts {spec : Spec} (h : spec.Accepted) {layouts : Keyed Layout}
    (hl : ∀ entry ∈ layouts, entry ∈ spec.layouts) (own : Members) (rest : List Token) :
    readMembers [] own ((layouts.flatMap fun (key, layout) =>
        layoutLines (Bindings.ofSpec spec) key layout).flatMap tokens ++ rest) =
      readMembers [] (own ++ layouts.map fun (key, layout) =>
        (key, .plain (layoutMembers (Bindings.ofSpec spec) key layout))) rest := by
  induction layouts generalizing own with
  | nil =>
      rw [List.map_nil, List.append_nil]
      rfl
  | cons entry more ih =>
      obtain ⟨key, layout⟩ := entry
      rw [List.forall_mem_cons] at hl
      obtain ⟨helement, hviews⟩ := spellable_ofSpec h hl.1
      have hkey := h.keys key (List.mem_map_of_mem (f := Prod.fst) hl.1)
      have hicon := fun icon hi => ((h.layouts _ hl.1).icon icon hi).1
      rw [List.flatMap_cons, List.flatMap_append, List.append_assoc,
        readMembers_layoutLines hkey helement hicon hviews, ih hl.2, List.append_assoc]
      rfl

/-- **The statement of the routes is read as their object.** -/
theorem readStatements_routes {spec : Spec} (h : spec.Accepted) (sections : List (String × List ImportStatement))
    (rest : List Token) :
    readStatements sections (tokens ("const routes = " ++ literal spec (Bindings.ofSpec spec) ++ ";") ++ rest) =
      some ⟨sections.reverse, routesMembers spec (Bindings.ofSpec spec)⟩ := by
  -- Behind the opening brace the members are read, and behind them the statement ends.
  have hstatement : ∀ (members : Members) (body : List Token),
      readMembers [] [] body = some (members, .mark ';' :: rest) →
      readStatements sections (.word "const" :: .word "routes" :: .mark '=' :: .mark '{' :: body) =
        some ⟨sections.reverse, members⟩ := by
    intro members body hbody
    rw [readStatements, hbody]
    rfl
  unfold literal
  split
  · next hempty =>
    have hnil : spec.layouts = [] := List.isEmpty_iff.mp hempty
    have htokens : tokens ("const routes = " ++ "\x7b\x7d" ++ ";") =
        [.word "const", .word "routes", .mark '=', .mark '{', .mark '}', .mark ';'] := by decide
    rw [htokens, routesMembers, hnil]
    rfl
  · have hfront : tokens ("const routes = " ++ "\x7b") =
        [.word "const", .word "routes", .mark '=', .mark '{'] := by decide
    have hback : tokens ("\x7d" ++ ";") = [.mark '}', .mark ';'] := by decide
    have hsplit : tokens ("const routes = " ++ "\n".intercalate ("\x7b" :: ((spec.layouts.flatMap
          fun (key, layout) => layoutLines (Bindings.ofSpec spec) key layout) ++ ["\x7d"])) ++ ";") =
        tokens ("const routes = " ++ "\x7b") ++ (spec.layouts.flatMap
          fun (key, layout) => layoutLines (Bindings.ofSpec spec) key layout).flatMap tokens ++
            tokens ("\x7d" ++ ";") :=
      byLine_intercalate lineTokens "const routes = " ";" "\x7b" "\x7d" _
    have hread := readMembers_layouts h (fun entry he => he) [] (.mark '}' :: .mark ';' :: rest)
    have hclose : ∀ members, readMembers [] members (.mark '}' :: .mark ';' :: rest) =
        some (members, .mark ';' :: rest) := fun _ => rfl
    rw [List.nil_append, hclose] at hread
    refine (congrArg (fun list => readStatements sections (list ++ rest)) hsplit).trans ?_
    rw [hfront, hback, List.append_assoc, List.append_assoc]
    simp only [List.cons_append, List.nil_append]
    exact hstatement _ _ hread

/-! ## 5. The whole text -/

/-- The sections of the routing module of a specification. -/
def sectionsOf (iconPackage : String) (spec : Spec) : Keyed (List ImportStatement) :=
  ("", [.named ["Route"] "react-router-dom"]) :: (iconSections iconPackage (IconSet.ofSpec spec).icons ++
    (" Layouts", ((Bindings.ofSpec spec).values.map LayoutImports.layout).map .whole) ::
      (viewGroups (Bindings.ofSpec spec)).map ViewImports.section)

/-- The tokens of the routing module are those of its parts. -/
theorem tokens_text (p : Parts) : tokens p.text =
    .word "import" :: .mark '{' :: .word "Route" :: .mark '}' :: .word "from" :: .text "react-router-dom" ::
      .mark ';' :: (p.iconLines.flatMap tokens ++ .comment " Layouts" :: ((p.layouts.map importLine).flatMap tokens ++
        ((p.viewGroups.flatMap ViewImports.lines).flatMap tokens ++
          (tokens ("const routes = " ++ p.routes ++ ";") ++ tokens p.runtime)))) := by
  -- Of the tokens only those of the fixed lines matter; the others are not to be computed.
  have hlines : ∀ f : String → List Token, f "" = [] → f "// Layouts" = [.comment " Layouts"] →
      f "import \x7b Route \x7d from \"react-router-dom\";" = [.word "import", .mark '{', .word "Route", .mark '}',
        .word "from", .text "react-router-dom", .mark ';'] →
      (["import \x7b Route \x7d from \"react-router-dom\";"] ++ p.iconLines ++ ["", "// Layouts"] ++
        p.layouts.map importLine ++ p.viewGroups.flatMap ViewImports.lines ++
        ["", "const routes = " ++ p.routes ++ ";", "", p.runtime]).flatMap f =
      .word "import" :: .mark '{' :: .word "Route" :: .mark '}' :: .word "from" :: .text "react-router-dom" ::
        .mark ';' :: (p.iconLines.flatMap f ++ .comment " Layouts" :: ((p.layouts.map importLine).flatMap f ++
          ((p.viewGroups.flatMap ViewImports.lines).flatMap f ++
            (f ("const routes = " ++ p.routes ++ ";") ++ f p.runtime)))) := by
    intro f hblank hheading hroute
    simp only [List.flatMap_append, List.flatMap_cons, List.flatMap_nil, hblank, hheading, hroute, List.append_assoc,
      List.cons_append, List.nil_append, List.append_nil]
  rw [Parts.text, tokens_unlines]
  exact hlines tokens rfl (by decide) (by decide)

/-- **What is read off the text of the routing module.** -/
theorem read_text {spec : Spec} (h : spec.Accepted) {iconPackage : String} (hp : Plain iconPackage) :
    Contents.read (Parts.ofSpec iconPackage spec).text =
      some ⟨sectionsOf iconPackage spec, routesMembers spec (Bindings.ofSpec spec)⟩ := by
  have himports := importable_ofSpec h
  have hicons := readStatements_iconLines (p := Parts.ofSpec iconPackage spec)
    (fun icon hi => (IconSet.isIcon_of_mem h hi).1) rfl hp
  have hlayouts : ∀ i ∈ (Parts.ofSpec iconPackage spec).layouts, Importable i := by
    intro i hi
    obtain ⟨l, hl, rfl⟩ := List.mem_map.mp hi
    obtain ⟨entry, he, rfl⟩ := List.mem_map.mp hl
    exact (himports entry he).1
  have hgroups : ∀ g ∈ (Parts.ofSpec iconPackage spec).viewGroups, Groupable g := by
    intro g hg
    obtain ⟨l, hl, hviews⟩ := mem_viewGroups (hg : g ∈ viewGroups (Bindings.ofSpec spec))
    obtain ⟨-, hheading, himport⟩ := himports _ hl
    exact ⟨hheading, hviews ▸ himport⟩
  have hroutes : ∀ (sections : List (String × List ImportStatement)) (rest : List Token), readStatements sections
      (tokens ("const routes = " ++ (Parts.ofSpec iconPackage spec).routes ++ ";") ++ rest) =
        some ⟨sections.reverse, routesMembers spec (Bindings.ofSpec spec)⟩ := readStatements_routes h
  have hfirst : ∀ rest, readStatements [("", [])] (.word "import" :: .mark '{' :: .word "Route" :: .mark '}' ::
      .word "from" :: .text "react-router-dom" :: .mark ';' :: rest) =
      readStatements [("", [.named ["Route"] "react-router-dom"])] rest := fun _ => rfl
  have hcomment : ∀ (sections : List (String × List ImportStatement)) (rest : List Token),
      readStatements sections (.comment " Layouts" :: rest) = readStatements ((" Layouts", []) :: sections) rest :=
    fun _ _ => rfl
  have hsections : ((viewGroups (Bindings.ofSpec spec)).map ViewImports.section).reverse ++
      (" Layouts", ((Bindings.ofSpec spec).values.map LayoutImports.layout).map .whole) ::
        (iconSections iconPackage (IconSet.ofSpec spec).icons ++ [("", [.named ["Route"] "react-router-dom"])]) =
      (sectionsOf iconPackage spec).reverse := by
    rw [sectionsOf, List.reverse_cons, List.reverse_append, List.reverse_cons, reverse_iconSections,
      List.append_assoc, List.append_assoc]
    rfl
  have hparts : (Parts.ofSpec iconPackage spec).viewGroups = viewGroups (Bindings.ofSpec spec) ∧
      (Parts.ofSpec iconPackage spec).layouts = (Bindings.ofSpec spec).values.map LayoutImports.layout ∧
      (Parts.ofSpec iconPackage spec).iconPackage = iconPackage := ⟨rfl, rfl, rfl⟩
  rw [Contents.read, tokens_text, hfirst, hicons, hcomment, readStatements_importLines hlayouts,
    readStatements_viewGroups hgroups, hroutes, hparts.1, hparts.2.1, hparts.2.2, List.nil_append, hsections,
    List.reverse_reverse]

/-! ## 6. Nothing is lost -/

theorem viewsHeading_inj {k l : String} : viewsHeading k = viewsHeading l ↔ Name.capitalize k = Name.capitalize l := by
  unfold viewsHeading
  rw [← String.toList_inj, String.toList_append, String.toList_append, String.toList_append, String.toList_append,
    List.append_cancel_right_eq, List.append_cancel_left_eq, String.toList_inj]

/-- The headings of the views differ from layout to layout. -/
theorem nodup_viewsHeadings {spec : Spec} (h : spec.Accepted) : (spec.layouts.keys.map viewsHeading).Nodup := by
  refine (List.nodup_map_iff_inj_on h.nodup_keys).mpr fun k hk l hl e => ?_
  exact List.inj_on_of_nodup_map h.names hk hl (Name.layout_inj.mpr (viewsHeading_inj.mp e))

/-- The heading of views is none of the other headings. -/
theorem viewsHeading_ne {layout heading : String} (h : 'V' ∉ heading.toList) : heading ≠ viewsHeading layout := by
  rintro rfl
  refine h ?_
  rw [viewsHeading, String.toList_append]
  exact List.mem_append_right _ (by decide)

/-- What is read off a routing module is what a specification puts in. -/
structure Contents.Tells (c : Contents) (iconPackage : String) (spec : Spec) : Prop where
  /-- The icons stand in one import list, if there are icons. -/
  icons : c.under " Icons" =
    if (IconSet.ofSpec spec).icons = [] then [] else [.named (IconSet.ofSpec spec).icons iconPackage]
  layouts : c.under " Layouts" = (Bindings.ofSpec spec).values.map fun l => .whole l.layout
  /-- The views of each layout stand under its heading. -/
  views : ∀ entry ∈ Bindings.ofSpec spec,
    c.under (viewsHeading entry.1) = entry.2.views.values.map .whole
  /-- The routes are the nodes of the specification, with the names of their imports as components. -/
  routes : c.routes = routesMembers spec (Bindings.ofSpec spec)
  components : ∀ entry ∈ Bindings.ofSpec spec, Named (Bindings.ofSpec spec) entry

/-- Under another heading the icons do not matter. -/
theorem get?_iconSections_append {heading : String} (h : " Icons" ≠ heading) (iconPackage : String)
    (icons : List String) (more : Keyed (List ImportStatement)) :
    Keyed.get? (iconSections iconPackage icons ++ more) heading = more.get? heading := by
  unfold iconSections
  split
  · rfl
  · rw [List.singleton_append, Keyed.get?_cons, if_neg h]

theorem tells_of_accepted {spec : Spec} (h : spec.Accepted) (iconPackage : String) :
    Contents.Tells ⟨sectionsOf iconPackage spec, routesMembers spec (Bindings.ofSpec spec)⟩ iconPackage spec := by
  have hne : ∀ layout, "" ≠ viewsHeading layout ∧ " Icons" ≠ viewsHeading layout ∧ " Layouts" ≠ viewsHeading layout :=
    fun layout => ⟨viewsHeading_ne (by decide), viewsHeading_ne (by decide), viewsHeading_ne (by decide)⟩
  refine ⟨?icons, ?layouts, fun entry he => ?views, rfl, named_ofSpec h⟩
  case icons =>
    rw [Contents.under, sectionsOf, Keyed.get?_cons, if_neg (by decide), iconSections]
    by_cases hicons : (IconSet.ofSpec spec).icons = []
    · have hnone : Keyed.get? ((viewGroups (Bindings.ofSpec spec)).map ViewImports.section) " Icons" = none :=
        get?_section_none fun hm => by
          obtain ⟨key, -, hk⟩ := List.mem_map.mp hm
          exact (hne key).2.1 hk.symm
      rw [if_pos hicons, if_pos hicons, List.nil_append, Keyed.get?_cons, if_neg (by decide), hnone]
      rfl
    · rw [if_neg hicons, if_neg hicons, List.singleton_append, Keyed.get?_cons, if_pos rfl]
      rfl
  case layouts =>
    rw [Contents.under, sectionsOf, Keyed.get?_cons, if_neg (by decide), get?_iconSections_append (by decide),
      Keyed.get?_cons, if_pos rfl]
    exact List.map_map
  case views =>
    have hn : ((Bindings.ofSpec spec).keys.map viewsHeading).Nodup := by
      rw [Bindings.ofSpec_eq h, Bindings.keys_tableOf]
      exact nodup_viewsHeadings h
    rw [Contents.under, sectionsOf, Keyed.get?_cons, if_neg (hne _).1, get?_iconSections_append (hne _).2.1,
      Keyed.get?_cons, if_neg (hne _).2.2]
    exact get?_section hn he

/-- **The text of the routing module loses nothing.** -/
theorem read_back {defaults : Defaults} {document : Document} {spec : Spec} {iconPackage : String}
    (h : Spec.validate defaults document = .ok spec) (hp : Plain iconPackage) :
    ∃ text contents, Renderer.builtin.routes (Parts.ofSpec iconPackage spec) = .ok text ∧
      Contents.read text = some contents ∧ contents.Tells iconPackage spec :=
  have ha := Spec.accepted_of_validate h
  ⟨(Parts.ofSpec iconPackage spec).text, ⟨sectionsOf iconPackage spec, routesMembers spec (Bindings.ofSpec spec)⟩, rfl,
    read_text ha hp, tells_of_accepted ha iconPackage⟩

/-- Titles and paths that look like the text of the module, an empty mapping of views and a layout without views. -/
theorem imitation_read_back : ∃ spec text contents,
    Spec.validate .standard (.map [
      ("home", .map [("path", .text "/\"\x7d,\n  admin: \x7b"), ("icon", .text "AiFillHome"), ("routes", .map [
        ("list", .map [("title", .text "const routes = \x7b\x7d;\\"), ("routes", .map [])])])]),
      ("admin", .map [])]) = .ok spec ∧
    Plain standardIconPackage ∧
    Renderer.builtin.routes (Parts.ofSpec standardIconPackage spec) = .ok text ∧
    Contents.read text = some contents ∧ contents.Tells standardIconPackage spec ∧
    routesMembers spec (Bindings.ofSpec spec) =
      [("home", .plain [("path", .text "/\"\x7d,\n  admin: \x7b"), ("element", .component "HomeLayout"),
         ("title", .text "Insert title"), ("icon", .component "AiFillHome"), ("routes", .plain [
           ("list", .plain [("path", .text ""), ("element", .component "ListView"),
             ("title", .text "const routes = \x7b\x7d;\\"), ("icon", .component "AiFillHome"),
             ("routes", .plain [])])])]),
       ("admin", .plain [("path", .text ""), ("element", .component "AdminLayout"),
         ("title", .text "Insert title")])] := by
  have h : Spec.validate .standard (.map [
      ("home", .map [("path", .text "/\"\x7d,\n  admin: \x7b"), ("icon", .text "AiFillHome"), ("routes", .map [
        ("list", .map [("title", .text "const routes = \x7b\x7d;\\"), ("routes", .map [])])])]),
      ("admin", .map [])]) = .ok _ := rfl
  have hp : Plain standardIconPackage := by decide
  obtain ⟨text, contents, htext, hread, htells⟩ := read_back h hp
  exact ⟨_, text, contents, h, hp, htext, hread, htells, rfl⟩

end RouteScaffold.RoutingModule
