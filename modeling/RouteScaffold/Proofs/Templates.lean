import RouteScaffold.Proofs.RoutingModule.Lines
import RouteScaffold.Renderer

/-!
# The built-in templates

What a renderer writes where no template of the user replaces it is given as text (`Component`, `Parts.text`); the
templates that are registered then are given as templates (`Slot.source`). The two are joined here: what the standard
engine makes of the built-in templates are those texts, for all keys, titles and parts of a routing module
(`render_layout` to `render_routes`), and so a user who puts the built-in templates in place of themselves changes no
file (`Renderer.ofOverrides_source`).

A built-in template is read once, as pieces (`Slot.read?_source`); what it writes is then followed piece by piece.
Pieces may hold numbers, whose equality is not decided, but those here hold none (`Piece.isSame`).
-/

namespace RouteScaffold

open RoutingModule (unlines_nil unlines_cons unlines_append toList_unlines join_unlines)

namespace Template

/-! ## 1. Pieces compared -/

/-- Are they one and the same way to a value? -/
def Operand.isSame : Operand → Operand → Bool
  | .value w, .value v => w == v
  | _, _ => false

/-- Do two writing tags hold the same, with no literal and no nested call in it? -/
def Phrase.isSame : Phrase → Phrase → Bool
  | .call helper operands, .call other more => helper == other && operands.isEqv more Operand.isSame
  | .name w, .name v => w == v
  | _, _ => false

/-- Do two tags do the same, with no literal and no nested call in them? -/
def Tag.Kind.isSame : Tag.Kind → Tag.Kind → Bool
  | .phrase p escaped, .phrase q also => p.isSame q && escaped == also
  | .begin helper operands, .begin other more => helper == other && operands.isEqv more Operand.isSame
  | .finish helper, .finish other => helper == other
  | _, _ => false

/-- Are two pieces the same, with no literal and no nested call in them? -/
def Piece.isSame : Piece → Piece → Bool
  | .text s, .text t => s == t
  | .tag mark kind, .tag other like => mark == other && kind.isSame like
  | _, _ => false

/-- Lists with the same items in the same places are equal, if it is so for the items. -/
theorem eq_of_isEqv {α : Type} {same : α → α → Bool} (hsame : ∀ a b, same a b = true → a = b) {l : List α} :
    ∀ {more : List α}, l.isEqv more same = true → l = more := by
  induction l with
  | nil => intro more h; cases more <;> simp_all [List.isEqv]
  | cons a rest ih =>
      intro more h
      cases more with
      | nil => simp [List.isEqv] at h
      | cons b more =>
          rw [List.isEqv, Bool.and_eq_true] at h
          rw [hsame a b h.1, ih h.2]

theorem Operand.eq_of_isSame (o p : Operand) (h : o.isSame p = true) : o = p := by
  cases o <;> cases p <;> simp_all [Operand.isSame]

theorem Phrase.eq_of_isSame (p q : Phrase) (h : p.isSame q = true) : p = q := by
  cases p <;> cases q <;> simp_all [Phrase.isSame]
  exact eq_of_isEqv Operand.eq_of_isSame h.2

theorem Tag.Kind.eq_of_isSame (k l : Tag.Kind) (h : k.isSame l = true) : k = l := by
  cases k <;> cases l <;> simp_all [Tag.Kind.isSame]
  · exact Phrase.eq_of_isSame _ _ h.1
  · exact eq_of_isEqv Operand.eq_of_isSame h.2

theorem Piece.eq_of_isSame (a b : Piece) (h : a.isSame b = true) : a = b := by
  cases a <;> cases b <;> simp_all [Piece.isSame]
  exact Tag.Kind.eq_of_isSame _ _ h.2

/-! ## 2. What the built-in texts consist of -/

/-- A name for the value in scope. -/
def field (name : String) : Way := ⟨name, .scope 0, [name]⟩

/-- Lines, and the beginning of one more. -/
def Piece.lines (lines : List String) (last : String) : Piece := .text (Text.unlines lines ++ last).toList

/-- A tag with a helper, applied to a field. -/
def Piece.helped (line column : Nat) (helper name : String) : Piece :=
  .tag ⟨line, column⟩ (.phrase (.call helper [.value (field name)]) true)

/-- A tag that writes a field. -/
def Piece.field (line column : Nat) (name : String) (escaped : Bool) : Piece :=
  .tag ⟨line, column⟩ (.phrase (.name (Template.field name)) escaped)

/-- The tag that begins a block about a field. -/
def Piece.opening (line : Nat) (helper name : String) : Piece :=
  .tag ⟨line, 1⟩ (.begin helper [.value (Template.field name)])

/-- The tag that ends a block. -/
def Piece.closing (line : Nat) (helper : String) : Piece := .tag ⟨line, 1⟩ (.finish helper)

end Template

open Template

/-- The pieces of the built-in template of a kind. -/
def Slot.pieces : Slot → List Piece
  | .layout =>
    [.lines ["import React from \"react\";", "", "// Libraries", "import \x7b Outlet \x7d from \"react-router-dom\";",
      "", "// Styles"] "// import Style from \"./",
     .helped 7 25 "layoutName" "componentKey",
     .lines [".module.css\";", ""] "const ",
     .helped 9 7 "layoutName" "componentKey",
     .lines [" = () => \x7b", "  return (", "    <div>", "      <main>", "        <Outlet />", "      </main>",
      "    </div>", "  );", "\x7d;", ""] "export default ",
     .helped 19 16 "layoutName" "componentKey",
     .lines [";"] ""]
  | .sidebarLayout =>
    [.lines ["import React, \x7b useState \x7d from \"react\";", "", "// Components",
      "import Sidebar from \"../../Components/UIKit/Sidebar/Sidebar\";",
      "import Navbar from \"../../Components/UIKit/Navbar/Navbar\";", "", "// Libraries",
      "import \x7b Outlet \x7d from \"react-router-dom\";", "", "// Data",
      "import \x7b routes \x7d from \"../../Data/routes\";", "", "// Styles"] "import Style from \"./",
     .helped 14 22 "layoutName" "componentKey",
     .lines [".module.css\";", ""] "const ",
     .helped 16 7 "layoutName" "componentKey",
     .lines [" = () => \x7b", "  const [sidebarIsOpen, setSidebarIsOpen] = useState(false);", "",
      "  const closeSidebar = () => \x7b", "    if (window.innerWidth < 991 && sidebarIsOpen) \x7b",
      "      setSidebarIsOpen(false);", "    \x7d", "  \x7d;", "", "  return (",
      "    <div className=\x7bStyle.layouting\x7d>"]
      "      <Sidebar sidebarIsOpen=\x7bsidebarIsOpen\x7d route=\x7broutes[\"",
     .field 27 61 "componentKey" true,
     .lines ["\"]\x7d />", "      <div className=\x7bStyle.mainContainer\x7d onClick=\x7b() => closeSidebar()\x7d>",
      "        <Navbar", "          sidebarIsOpen=\x7bsidebarIsOpen\x7d",
      "          setSidebarIsOpen=\x7bsetSidebarIsOpen\x7d", "        />",
      "        <main className=\x7bStyle.contentContainer\x7d>", "          <Outlet />", "        </main>",
      "      </div>", "    </div>", "  );", "\x7d;", ""] "export default ",
     .helped 41 16 "layoutName" "componentKey",
     .lines [";"] ""]
  | .view =>
    [.lines ["import React from \"react\";", ""] "",
     .opening 3 "if" "sitemap",
     .lines ["// Data", "import \x7b sitemap \x7d from \"../../../Data/routes\";", ""] "",
     .closing 7 "if",
     .lines ["// Styles"] "// import Style from \"./",
     .helped 9 25 "viewName" "componentKey",
     .lines [".module.css\";", ""] "const ",
     .helped 11 7 "viewName" "componentKey",
     .lines [" = () => \x7b", "  return (", "    <div>"] "      <h2>",
     .helped 14 11 "jsxText" "title",
     .lines ["</h2>", "      <p>Under construction</p>"] "",
     .opening 16 "if" "sitemap",
     .lines ["      \x7bsitemap\x7d"] "",
     .closing 18 "if",
     .lines ["    </div>", "  );", "\x7d;", ""] "export default ",
     .helped 23 16 "viewName" "componentKey",
     .lines [";"] ""]
  | .viewIndex =>
    [.lines [] "export \x7b default \x7d from \"./", .helped 1 28 "viewName" "componentKey", .lines ["\";"] ""]
  | .routes =>
    [.lines ["import \x7b Route \x7d from \"react-router-dom\";"] "",
     .opening 2 "if" "icons",
     .lines ["", "// Icons"] "import \x7b ",
     .field 5 10 "icons" false,
     .lines [] " \x7d from \"",
     .field 5 30 "iconPackage" false,
     .lines ["\";"] "",
     .closing 6 "if",
     .lines ["", "// Layouts"] "",
     .opening 9 "each" "layouts",
     .lines [] "import ",
     .field 10 8 "binding" false,
     .lines [] " from \"",
     .field 10 28 "source" false,
     .lines ["\";"] "",
     .closing 11 "each",
     .lines [] "",
     .opening 12 "each" "viewGroups",
     .lines [""] "// ",
     .helped 14 4 "camelName" "layoutKey",
     .lines [" Views"] "",
     .opening 15 "each" "views",
     .lines [] "import ",
     .field 16 8 "binding" false,
     .lines [] " from \"",
     .field 16 28 "source" false,
     .lines ["\";"] "",
     .closing 17 "each",
     .lines [] "",
     .closing 18 "each",
     .lines [""] "const routes = ",
     .field 20 16 "routes" false,
     .lines [";", ""] "",
     .field 22 1 "runtime" false,
     .lines [""] ""]

/-- **Each built-in text is read as its pieces, put together.** -/
theorem Slot.read?_source (slot : Slot) : Template.read? slot.source = build? slot.pieces [] [] := by
  have hsame : (pieces? (slot.source.toList.length + 1) ⟨false, false⟩ [] ⟨1, 1⟩ [] slot.source.toList).any
      (·.reverse.isEqv slot.pieces Piece.isSame) = true := by
    cases slot <;>
      simp only [Slot.source, Slot.pieces, Piece.lines, String.toList_append, toList_unlines, List.flatMap_cons,
        List.flatMap_nil] <;>
      -- The lines as lists of characters, since decoding them takes the longest by far.
      (repeat rw [String.toList_ofList]) <;>
      decide +kernel
  obtain ⟨ps, hps, hs⟩ := (Option.any_eq_true _ _).mp hsame
  rw [Template.read?, hps, Option.bind_some, eq_of_isEqv Piece.eq_of_isSame hs]

namespace Template

/-! ## 3. Rendering in steps -/

section

variable {scopes : List Scope} {held : Phrase} {escaped : Bool} {way : Way} {body other : Template} {a : String}

theorem renderIn_text (s : String) (rest : Template) (scopes : List Scope) :
    renderIn (.text s rest) scopes = (renderIn rest scopes).map (s ++ ·) := by
  rw [renderIn]
  cases renderIn rest scopes <;> rfl

theorem renderIn_phrase (h : renderPhrase scopes escaped held = .ok a) (mark : Mark) (rest : Template) :
    renderIn (.phrase mark held escaped rest) scopes = (renderIn rest scopes).map (a ++ ·) := by
  rw [renderIn, h]
  cases renderIn rest scopes <;> rfl

theorem atMark_ok {α : Type} (mark : Mark) (a : α) : atMark mark (.ok a) = .ok a :=
  rfl

theorem evaluateAll_value {value : Option Document} (h : lookup? scopes way = .ok value) :
    evaluateAll scopes [.value way] = .ok [value] := by
  rw [evaluateAll, evaluate, h]
  rfl

theorem renderIn_if {value : Option Document} (hv : lookup? scopes way = .ok value)
    (h : (if isTruthy value then renderIn body scopes else renderIn other scopes) = .ok a) (mark : Mark)
    (divided : Bool) (rest : Template) :
    renderIn (.block mark "if" [.value way] body divided other rest) scopes =
      (renderIn rest scopes).map (a ++ ·) := by
  have hbranch : (if isTruthy value == ("if" == "if") then renderIn body scopes else renderIn other scopes) =
    .ok a := by
    rw [← h]
    cases isTruthy value <;> rfl
  have hblock : isBlockHelper "if" = true := by decide
  have heach : ¬ "if" = "each" := by decide
  rw [renderIn, evaluateAll_value hv]
  simp only [bind, Except.bind, hblock, if_neg heach, hbranch, atMark_ok]
  cases renderIn rest scopes <;> rfl

theorem mapM_mapIdx_rounds {α : Type} {value : α → Document} {text : α → String} (bound : Nat → Document.Fields)
    {items : List α} (h : ∀ x ∈ items, ∀ bound, renderIn body (⟨value x, bound⟩ :: scopes) = .ok (text x)) :
    (((items.map value).mapIdx fun i v => Scope.mk v (bound i)).mapM fun scope => renderIn body (scope :: scopes)) =
      .ok (items.map text) := by
  induction items generalizing bound with
  | nil => rfl
  | cons x rest ih =>
      rw [List.map_cons, List.mapIdx_cons, List.mapM_cons, h x List.mem_cons_self,
        ih (fun i => bound (i + 1)) fun y hy => h y (List.mem_cons_of_mem _ hy)]
      rfl

theorem renderIn_each {α : Type} {items : List α} {value : α → Document} {text : α → String}
    (hv : lookup? scopes way = .ok (some (.list (items.map value))))
    (h : ∀ x ∈ items, ∀ bound, renderIn body (⟨value x, bound⟩ :: scopes) = .ok (text x)) (mark : Mark)
    (rest : Template) :
    renderIn (.block mark "each" [.value way] body false other rest) scopes =
      (renderIn rest scopes).map (String.join (items.map text) ++ ·) := by
  have hrounds : rounds? (some (.list (items.map value))) false = some (listRounds (items.map value)) := by
    rw [rounds?, Bool.and_false, if_neg Bool.false_ne_true]
  have hblock : isBlockHelper "each" = true := by decide
  have htexts := mapM_mapIdx_rounds (fun i => roundVariables i items.length ("index", .integer (Int.ofNat i))) h
  rw [renderIn, evaluateAll_value hv]
  simp only [bind, Except.bind, hblock, if_true, hrounds, listRounds, List.length_map, htexts, atMark_ok]
  cases renderIn rest scopes <;> rfl

end

section

variable {fields : Document.Fields} {name s : String}

/-- A name for a field of the value in scope leads to it. -/
theorem lookup?_field {value : Document} (h : Keyed.get? fields name = some value) (bound : Document.Fields)
    (outer : List Scope) : lookup? (⟨.map fields, bound⟩ :: outer) (field name) = .ok (some value) := by
  show follow? (some (.map fields)) [name] = _
  rw [follow?, stepInto?, h]
  rfl

theorem renderPhrase_helped {helper : String} {write : String → String} (hh : textHelper? helper = some write)
    (h : Keyed.get? fields name = some (.text s)) (bound : Document.Fields) (outer : List Scope) :
    renderPhrase (⟨.map fields, bound⟩ :: outer) true (.call helper [.value (field name)]) = .ok (write s) := by
  rw [renderPhrase, evaluateAll_value (lookup?_field h bound outer)]
  show applyHelper helper [some (.text s)] = _
  rw [applyHelper, hh]

theorem renderPhrase_field (hh : isHelper name = false) (h : Keyed.get? fields name = some (.text s))
    (bound : Document.Fields) (outer : List Scope) (escaped : Bool) :
    renderPhrase (⟨.map fields, bound⟩ :: outer) escaped (.name (field name)) =
      .ok (if escaped then Text.escapeMarkup s else s) := by
  have hspelling : isHelper (field name).spelling = false := hh
  rw [renderPhrase, if_neg (by rw [hspelling]; exact Bool.false_ne_true), lookup?_field h]
  simp only [bind, Except.bind, display]

end

end Template

/-! ## 4. What the built-in templates write -/

open Renderer

/-- The text of a template that the pieces of a built-in text make. -/
theorem TemplateEngine.render_source {slot : Slot} {t : Template} {value : Document} {text : String}
    (ht : build? slot.pieces [] [] = some t) (h : renderIn t [⟨value, []⟩] = .ok text) :
    TemplateEngine.standard.render Slot.source slot value = .ok text := by
  simp only [TemplateEngine.standard, Slot.read?_source, ht, Template.render, h]
  rfl

theorem render_layout (key : String) :
    TemplateEngine.standard.render Slot.source .layout (.map [keyField key]) = .ok (Component.layout key) := by
  have hname : renderPhrase [⟨.map [keyField key], []⟩] true (.call "layoutName" [.value (field "componentKey")]) =
      .ok (Name.layout key) := renderPhrase_helped rfl rfl [] []
  refine TemplateEngine.render_source rfl ?_
  simp only [assemble, List.foldl_cons, List.foldl_nil, renderIn_text, renderIn_phrase hname, String.ofList_toList]
  simp only [renderIn, Except.map, Component.layout, unlines_cons, unlines_nil, String.append_assoc,
    String.append_empty, String.empty_append]

theorem render_sidebarLayout (key : String) :
    TemplateEngine.standard.render Slot.source .sidebarLayout (.map [keyField key]) =
      .ok (Component.sidebarLayout key) := by
  have hname : renderPhrase [⟨.map [keyField key], []⟩] true (.call "layoutName" [.value (field "componentKey")]) =
      .ok (Name.layout key) := renderPhrase_helped rfl rfl [] []
  have hkey : renderPhrase [⟨.map [keyField key], []⟩] true (.name (field "componentKey")) =
      .ok (Text.escapeMarkup key) := renderPhrase_field rfl rfl [] [] true
  refine TemplateEngine.render_source rfl ?_
  simp only [assemble, List.foldl_cons, List.foldl_nil, renderIn_text, renderIn_phrase hname, renderIn_phrase hkey,
    String.ofList_toList]
  simp only [renderIn, Except.map, Component.sidebarLayout, unlines_cons, unlines_nil, String.append_assoc,
    String.append_empty, String.empty_append]

theorem render_viewIndex (key : String) :
    TemplateEngine.standard.render Slot.source .viewIndex (.map [keyField key]) = .ok (Component.viewIndex key) := by
  have hname : renderPhrase [⟨.map [keyField key], []⟩] true (.call "viewName" [.value (field "componentKey")]) =
      .ok (Name.view key) := renderPhrase_helped rfl rfl [] []
  refine TemplateEngine.render_source rfl ?_
  simp only [assemble, List.foldl_cons, List.foldl_nil, renderIn_text, renderIn_phrase hname, String.ofList_toList]
  simp only [renderIn, Except.map, Component.viewIndex, unlines_cons, unlines_nil, String.append_assoc,
    String.append_empty, String.empty_append]

theorem render_view (key title : String) (sitemap : Bool) :
    TemplateEngine.standard.render Slot.source .view
      (.map [keyField key, ("title", .text title), ("sitemap", .bool sitemap)]) =
        .ok (Component.view key title sitemap) := by
  refine TemplateEngine.render_source rfl ?_
  generalize hscopes : [Scope.mk (.map [keyField key, ("title", .text title), ("sitemap", .bool sitemap)]) []] = scopes
  have hname : renderPhrase scopes true (.call "viewName" [.value (field "componentKey")]) = .ok (Name.view key) :=
    hscopes ▸ renderPhrase_helped rfl rfl [] []
  have htitle : renderPhrase scopes true (.call "jsxText" [.value (field "title")]) = .ok (Text.jsxText title) :=
    hscopes ▸ renderPhrase_helped rfl rfl [] []
  have hsitemap : lookup? scopes (field "sitemap") = .ok (some (.bool sitemap)) :=
    hscopes ▸ lookup?_field rfl [] []
  have honly (lines : List String) :
      (if isTruthy (some (.bool sitemap)) then renderIn (.text (Text.unlines lines) .nil) scopes
        else renderIn .nil scopes) = .ok (Text.unlines (Component.onlyIf sitemap lines)) := by
    cases sitemap with
    | false => rfl
    | true => rw [renderIn_text]; exact congrArg Except.ok String.append_empty
  simp only [assemble, Open.close, List.foldl_cons, List.foldl_nil, String.ofList_toList, String.append_empty]
  simp only [renderIn_text, renderIn_phrase hname, renderIn_phrase htitle, renderIn_if hsitemap (honly _)]
  simp only [renderIn, Except.map, Component.view, unlines_cons, unlines_append, unlines_nil, String.append_assoc,
    String.append_empty, String.empty_append]

/-- The part of a template that writes an import, in the line of that number. -/
def Template.importing (line : Nat) : Template :=
  .text "import " <| .phrase ⟨line, 8⟩ (.name (field "binding")) false <| .text " from \"" <|
    .phrase ⟨line, 28⟩ (.name (field "source")) false <| .text (Text.unlines ["\";"]) .nil

theorem renderIn_importing (line : Nat) (i : Import) (bound : Document.Fields) (outer : List Scope) :
    renderIn (importing line) (⟨importValue i, bound⟩ :: outer) =
      .ok (Text.unlines [RoutingModule.importLine i]) := by
  generalize hscopes : ⟨importValue i, bound⟩ :: outer = scopes
  have hbinding : renderPhrase scopes false (.name (field "binding")) = .ok i.binding :=
    hscopes ▸ renderPhrase_field (by decide) rfl bound outer false
  have hsource : renderPhrase scopes false (.name (field "source")) = .ok i.source :=
    hscopes ▸ renderPhrase_field (by decide) rfl bound outer false
  rw [importing]
  simp only [renderIn_text, renderIn_phrase hbinding, renderIn_phrase hsource]
  simp only [renderIn, Except.map, RoutingModule.importLine, unlines_cons, unlines_nil, String.append_assoc,
    String.append_empty]

/-- The imports of a list, one to a line. -/
theorem renderIn_eachImport {scopes : List Scope} {name : String} {imports : List Import}
    (h : lookup? scopes (field name) = .ok (some (.list (imports.map importValue)))) (line : Nat) (mark : Mark)
    (rest : Template) :
    renderIn (.block mark "each" [.value (field name)] (importing line) false .nil rest) scopes =
      (renderIn rest scopes).map (Text.unlines (imports.map RoutingModule.importLine) ++ ·) := by
  rw [renderIn_each h (fun i _ bound => renderIn_importing line i bound scopes), join_unlines, List.map_eq_flatMap]

/-- The part of a template that writes the imports of a layout's views. -/
def Template.importingViews : Template :=
  .text (Text.unlines [""] ++ "// ") <| .phrase ⟨14, 4⟩ (.call "camelName" [.value (field "layoutKey")]) true <|
    .text (Text.unlines [" Views"]) <|
      .block ⟨15, 1⟩ "each" [.value (field "views")] (importing 16) false .nil <| .text "" .nil

theorem renderIn_importingViews (g : RoutingModule.ViewImports) (bound : Document.Fields) (outer : List Scope) :
    renderIn importingViews (⟨viewsValue g, bound⟩ :: outer) = .ok (Text.unlines g.lines) := by
  generalize hscopes : ⟨viewsValue g, bound⟩ :: outer = scopes
  have hlayout : renderPhrase scopes true (.call "camelName" [.value (field "layoutKey")]) =
      .ok (Name.capitalize g.layout) := hscopes ▸ renderPhrase_helped rfl rfl bound outer
  have hviews : lookup? scopes (field "views") = .ok (some (.list (g.views.map importValue))) :=
    hscopes ▸ lookup?_field rfl bound outer
  rw [importingViews]
  simp only [renderIn_text, renderIn_phrase hlayout, renderIn_eachImport hviews]
  simp only [renderIn, Except.map, RoutingModule.ViewImports.lines, unlines_cons, unlines_nil,
    String.append_assoc, String.append_empty, String.empty_append]

theorem render_routes (p : RoutingModule.Parts) :
    TemplateEngine.standard.render Slot.source .routes (partsValue p) = .ok p.text := by
  refine TemplateEngine.render_source rfl ?_
  generalize hscopes : [Scope.mk (partsValue p) []] = scopes
  have hicons : renderPhrase scopes false (.name (field "icons")) = .ok p.icons :=
    hscopes ▸ renderPhrase_field (by decide) rfl [] [] false
  have hpackage : renderPhrase scopes false (.name (field "iconPackage")) = .ok p.iconPackage :=
    hscopes ▸ renderPhrase_field (by decide) rfl [] [] false
  have hroutes : renderPhrase scopes false (.name (field "routes")) = .ok p.routes :=
    hscopes ▸ renderPhrase_field (by decide) rfl [] [] false
  have hruntime : renderPhrase scopes false (.name (field "runtime")) = .ok p.runtime :=
    hscopes ▸ renderPhrase_field (by decide) rfl [] [] false
  have hlayouts : lookup? scopes (field "layouts") = .ok (some (.list (p.layouts.map importValue))) :=
    hscopes ▸ lookup?_field rfl [] []
  have hgroups : lookup? scopes (field "viewGroups") = .ok (some (.list (p.viewGroups.map viewsValue))) :=
    hscopes ▸ lookup?_field rfl [] []
  have hif : lookup? scopes (field "icons") = .ok (some (.text p.icons)) := hscopes ▸ lookup?_field rfl [] []
  have honly : (if isTruthy (some (.text p.icons)) then
      renderIn (.text (Text.unlines ["", "// Icons"] ++ "import \x7b ") <|
        .phrase ⟨5, 10⟩ (.name (field "icons")) false <| .text " \x7d from \"" <|
        .phrase ⟨5, 30⟩ (.name (field "iconPackage")) false <| .text (Text.unlines ["\";"]) .nil) scopes
      else renderIn .nil scopes) = .ok (Text.unlines p.iconLines) := by
    simp only [renderIn_text, renderIn_phrase hicons, renderIn_phrase hpackage, isTruthy, RoutingModule.Parts.iconLines]
    cases p.icons.isEmpty with
    | true => rfl
    | false =>
        simp only [renderIn, Except.map, Bool.not_false, if_true, if_neg Bool.false_ne_true, unlines_cons,
          unlines_nil, String.append_assoc, String.append_empty]
  simp only [assemble, Open.close, List.foldl_cons, List.foldl_nil, String.ofList_toList, String.append_empty,
    unlines_nil, String.empty_append]
  rw [← importing, ← importing, ← importingViews]
  simp only [renderIn_text, renderIn_phrase hroutes, renderIn_phrase hruntime, renderIn_if hif honly,
    renderIn_eachImport hlayouts, renderIn_each hgroups (fun g _ bound => renderIn_importingViews g bound scopes),
    join_unlines]
  simp only [renderIn, Except.map, RoutingModule.Parts.text, unlines_cons, unlines_append, unlines_nil,
    String.append_assoc, String.append_empty, String.empty_append]

/-! ## 5. Built-in templates in place of themselves -/

namespace Renderer

theorem source_of_builtin {overrides : Overrides} (h : ∀ o ∈ overrides, o.2 = o.1.source) :
    overrides.source = Slot.source := by
  funext slot
  rw [Overrides.source]
  cases hl : overrides.lookup slot with
  | none => rfl
  | some text =>
      obtain ⟨before, behind, heq, -⟩ := List.lookup_eq_some_iff.mp hl
      exact h (slot, text) (heq ▸ List.mem_append_right before List.mem_cons_self)

/-- A template of the user that makes what the built-in text is changes nothing. -/
theorem render_ofOverrides {engine : TemplateEngine} {overrides : Overrides} {slot : Slot} {value : Document}
    {text : String} (h : engine.render overrides.source slot value = .ok text) :
    (ofOverrides engine overrides).render slot value text = .ok text := by
  rw [render]
  cases hl : (ofOverrides engine overrides).templates.lookup slot with
  | none => rfl
  | some write =>
      obtain ⟨before, behind, heq, -⟩ := List.lookup_eq_some_iff.mp hl
      have hmem : (slot, write) ∈ (ofOverrides engine overrides).templates :=
        heq ▸ List.mem_append_right before List.mem_cons_self
      obtain ⟨o, -, ho⟩ := List.mem_map.mp hmem
      cases ho
      simp only [h]
      rfl

/-- **The built-in templates in place of themselves change no file**: a renderer with templates of the user that are the
built-in ones writes every layout, view, index and routing module as the renderer without them does. -/
theorem ofOverrides_source (overrides : Overrides) (h : ∀ o ∈ overrides, o.2 = o.1.source) :
    (∀ key sidebar, (ofOverrides .standard overrides).layout key sidebar = builtin.layout key sidebar) ∧
      (∀ key title sitemap,
        (ofOverrides .standard overrides).view key title sitemap = builtin.view key title sitemap) ∧
      (∀ key, (ofOverrides .standard overrides).viewIndex key = builtin.viewIndex key) ∧
      ∀ p, (ofOverrides .standard overrides).routes p = builtin.routes p := by
  have hsource := source_of_builtin h
  refine ⟨fun key sidebar => ?_, fun key title sitemap => ?_, fun key => ?_, fun p => ?_⟩
  · cases sidebar with
    | false => exact render_ofOverrides (hsource ▸ render_layout key)
    | true => exact render_ofOverrides (hsource ▸ render_sidebarLayout key)
  · exact render_ofOverrides (hsource ▸ render_view key title sitemap)
  · exact render_ofOverrides (hsource ▸ render_viewIndex key)
  · exact render_ofOverrides (hsource ▸ render_routes p)

end Renderer

end RouteScaffold
