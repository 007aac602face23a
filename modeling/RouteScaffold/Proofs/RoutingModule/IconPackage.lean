import RouteScaffold.Pattern.Search
import RouteScaffold.Proofs.Configurations
import RouteScaffold.Proofs.RoutingModule.ReadBack
import RouteScaffold.Proofs.RoutingModule.Scope
import RouteScaffold.Proofs.Script.StringLiteral

/-!
# The package of the icons

The import statement of the icons takes the configured package in as it is. What a configuration is checked for is that
the package is not blank (`check_iconPackage_iff`); what the statement needs is that the package is plain: a script
reads its specifier as the package, and the statement as ending there, for plain packages and for no others
(`specifies_iff`). The names that it lists are distinct, and can be bound unless one of them is a word of the language.
Main statement: `icon_package_read_iff`.
-/

namespace RouteScaffold.RoutingModule

open Script

/-- The text of a routing module with icons up to the package that they are from. -/
def iconImportFront (icons : String) : String :=
  Text.unlines ["import \x7b Route \x7d from \"react-router-dom\";", "", "// Icons"] ++
    ("import \x7b " ++ icons ++ " \x7d from ")

/-- Behind the icons the text goes on with what a script reads as the package, and the statement ends there. -/
def Specifies (text icons package : String) : Prop :=
  ∃ source more, text = iconImportFront icons ++ source ∧
    literal? source.toList = some (codeUnits package.toList, (";\n" ++ more).toList)

/-- The text imports the icons from the package, by one statement that a script accepts. -/
structure ImportsFrom (text : String) (icons : List String) (package : String) : Prop where
  distinct : icons.Nodup
  bindable : ∀ icon ∈ icons, Name.Bindable icon
  specifies : Specifies text (", ".intercalate icons) package

/-- **Where there are icons, the text has one statement for them, and the package in it as it is.** -/
theorem text_icons {p : Parts} (h : p.icons.isEmpty = false) :
    ∃ more, p.text = iconImportFront p.icons ++ ("\"" ++ p.iconPackage ++ "\";\n" ++ more) := by
  have hlines : p.iconLines = ["", "// Icons"] ++
      ["import \x7b " ++ p.icons ++ " \x7d from \"" ++ p.iconPackage ++ "\";"] := by
    rw [Parts.iconLines, h, if_neg Bool.false_ne_true]
    rfl
  have hline : Text.unlines ["import \x7b " ++ p.icons ++ " \x7d from \"" ++ p.iconPackage ++ "\";"] =
      "import \x7b " ++ p.icons ++ " \x7d from " ++ ("\"" ++ p.iconPackage ++ "\";\n") := by
    rw [Text.unlines, List.map_cons, List.map_nil, String.join_cons, ← String.toList_inj]
    simp only [String.toList_append, List.append_assoc]
    rfl
  have hsplit : p.text = Text.unlines (["import \x7b Route \x7d from \"react-router-dom\";", "", "// Icons"] ++
      (["import \x7b " ++ p.icons ++ " \x7d from \"" ++ p.iconPackage ++ "\";"] ++ (["", "// Layouts"] ++
        (p.layouts.map importLine ++ (p.viewGroups.flatMap ViewImports.lines ++
          ["", "const routes = " ++ p.routes ++ ";", "", p.runtime]))))) := by
    rw [Parts.text, hlines]
    simp only [List.append_assoc]
    rfl
  rw [hsplit, unlines_append, unlines_append, hline, iconImportFront]
  simp only [String.append_assoc]
  exact ⟨_, rfl⟩

/-- The icons of an accepted specification are listed by a text that is not empty. -/
theorem importList_isEmpty {spec : Spec} (h : spec.Accepted) (hi : (IconSet.ofSpec spec).icons ≠ []) :
    (IconSet.ofSpec spec).importList.isEmpty = false := by
  rw [← Bool.not_eq_true, String.isEmpty_iff]
  intro he
  have hnames := identifiers_importList fun icon hm => (IconSet.isIcon_of_mem h hm).1
  rw [← IconSet.importList, he] at hnames
  exact hi hnames.symm

/-- **A script reads the specifier of the icons as the package exactly if the package is plain.** -/
theorem specifies_iff {spec : Spec} (h : spec.Accepted) (hi : (IconSet.ofSpec spec).icons ≠ []) (package : String) :
    Specifies (Parts.ofSpec package spec).text (IconSet.ofSpec spec).importList package ↔ Plain package := by
  obtain ⟨more, htext⟩ : ∃ more, (Parts.ofSpec package spec).text =
      iconImportFront (IconSet.ofSpec spec).importList ++ ("\"" ++ package ++ "\";\n" ++ more) :=
    text_icons (importList_isEmpty h hi)
  have hsource : ("\"" ++ package ++ "\";\n" ++ more).toList =
      '"' :: (package.toList ++ '"' :: ';' :: '\n' :: more.toList) := by
    simp only [String.toList_append, List.append_assoc]
    rfl
  constructor
  · intro ⟨source, more', hsplit, hread⟩
    have hsame := String.append_right_inj _ |>.mp (htext.symm.trans hsplit)
    rw [← hsame, hsource] at hread
    exact ((literal?_iff package more.toList _).mp hread).1
  · intro hp
    refine ⟨_, more, htext, ?_⟩
    rw [hsource]
    refine (literal?_iff package more.toList _).mpr ⟨hp, ?_⟩
    rw [String.toList_append]
    rfl

/-- **A script accepts the import of the icons, as one from the package, exactly if the package is plain** and no icon
    is a word of the language. -/
theorem importsFrom_iff {spec : Spec} (h : spec.Accepted) (hi : (IconSet.ofSpec spec).icons ≠ []) (package : String) :
    ImportsFrom (Parts.ofSpec package spec).text (IconSet.ofSpec spec).icons package ↔
      Plain package ∧ ∀ icon ∈ (IconSet.ofSpec spec).icons, icon ∉ Name.unbindable := by
  constructor
  · intro himport
    exact ⟨(specifies_iff h hi package).mp himport.specifies, fun icon hm => (himport.bindable icon hm).2⟩
  · intro ⟨hp, hwords⟩
    exact ⟨IconSet.nodup_ofSpec spec, fun icon hm => ⟨(IconSet.isIcon_of_mem h hm).1, hwords icon hm⟩,
      (specifies_iff h hi package).mpr hp⟩

/-- **The package of an accepted configuration is any text that is not blank, and a script accepts the import of the
    icons as one from this package exactly if it is plain** and no icon is a word of the language. -/
theorem icon_package_read_iff {engine : PatternEngine} {config : Config} {document : Document} {spec : Spec}
    (hc : config.check engine = .ok config) (h : Spec.validate config.defaults document = .ok spec)
    (hi : (IconSet.ofSpec spec).icons ≠ []) :
    (∀ package, ({ config with iconPackage := package } : Config).check engine =
      .ok { config with iconPackage := package } ↔ Config.isBlank package = false) ∧
    ∃ text, Renderer.builtin.routes (Parts.ofSpec config.iconPackage spec) = .ok text ∧
      (ImportsFrom text (IconSet.ofSpec spec).icons config.iconPackage ↔
        Plain config.iconPackage ∧ ∀ icon ∈ (IconSet.ofSpec spec).icons, icon ∉ Name.unbindable) ∧
      (Specifies text (IconSet.ofSpec spec).importList config.iconPackage ↔ Plain config.iconPackage) ∧
      (Plain config.iconPackage → ∃ contents, Contents.read text = some contents ∧
        contents.under " Icons" = [.named (IconSet.ofSpec spec).icons config.iconPackage]) := by
  have ha := Spec.accepted_of_validate h
  have htells := (tells_of_accepted ha config.iconPackage).icons
  rw [if_neg hi] at htells
  exact ⟨Config.check_iconPackage_iff hc, _, rfl, importsFrom_iff ha hi config.iconPackage,
    specifies_iff ha hi config.iconPackage, fun hp => ⟨_, read_text ha hp, htells⟩⟩

/-- A package with a scope and an apostrophe is plain. -/
theorem scoped_package_read : ∃ config spec text, Config.check .standard config = .ok config ∧
    Spec.validate config.defaults (.map [("home", .map [("routes", .map [("list", .map [])])])]) = .ok spec ∧
    (IconSet.ofSpec spec).icons ≠ [] ∧ Renderer.builtin.routes (Parts.ofSpec config.iconPackage spec) = .ok text ∧
    config.iconPackage = "@acme/icon's" ∧ ImportsFrom text ["AiFillHome"] "@acme/icon's" := by
  have hflaws : Config.flaws .standard { Config.standard with iconPackage := "@acme/icon's" } = [] := by decide +kernel
  have hc := Config.check_ok_iff.mpr hflaws
  have h : Spec.validate .standard (.map [("home", .map [("routes", .map [("list", .map [])])])]) = .ok _ := rfl
  obtain ⟨-, text, htext, hreads, -⟩ := icon_package_read_iff hc h (by decide)
  exact ⟨_, _, text, hc, h, by decide, htext, rfl, hreads.mpr (by decide)⟩

/-- A package with a quote in it is accepted, and a script does not read the specifier of the icon as this package. -/
theorem quoted_package_cut : ∃ config spec text, Config.check .standard config = .ok config ∧
    Spec.validate config.defaults (.map [("home", .map [("icon", .text "AiFillBank")])]) = .ok spec ∧
    (IconSet.ofSpec spec).icons ≠ [] ∧ Renderer.builtin.routes (Parts.ofSpec config.iconPackage spec) = .ok text ∧
    config.iconPackage = "a\"b" ∧ ¬Specifies text "AiFillBank" config.iconPackage := by
  have hflaws : Config.flaws .standard { Config.standard with iconPackage := "a\"b" } = [] := by decide +kernel
  have hc := Config.check_ok_iff.mpr hflaws
  have h : Spec.validate .standard (.map [("home", .map [("icon", .text "AiFillBank")])]) = .ok _ := rfl
  have hreads := specifies_iff (Spec.accepted_of_validate h) (by decide) "a\"b"
  exact ⟨_, _, _, hc, h, by decide, rfl, rfl, fun hn => absurd (hreads.mp hn) (by decide)⟩

end RouteScaffold.RoutingModule
