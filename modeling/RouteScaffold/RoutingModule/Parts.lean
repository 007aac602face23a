import RouteScaffold.Routing.IconSet
import RouteScaffold.RoutingModule.Literal
import RouteScaffold.RoutingModule.Running

/-!
# The routing module

The parts of the generated routing module (`Parts.ofSpec`) and its text (`Parts.text`): the import of the
icons, if there are any, the imports of the layouts and of the views layout by layout, the literal of the
routes and the running part.
-/

namespace RouteScaffold.RoutingModule

/-- Where the routing module is, seen from the project. -/
def path : String := "src/Data/routes.js"

/-- The package of icons when nothing else is configured. -/
def standardIconPackage : String := "react-icons/ai"

/-- The imports of a layout's views. -/
structure ViewImports where
  layout : String
  views : List Import
  deriving DecidableEq, Repr

/-- What the text of the routing module is made of. -/
structure Parts where
  /-- The icons as the import clause lists them, empty if there are none. -/
  icons : String
  iconPackage : String
  layouts : List Import
  viewGroups : List ViewImports
  /-- The literal of the routes. -/
  routes : String
  runtime : String
  deriving DecidableEq, Repr

/-- The parts of the routing module of a specification. -/
def Parts.ofSpec (iconPackage : String) (spec : Spec) : Parts :=
  let bindings := Bindings.ofSpec spec
  { icons := (IconSet.ofSpec spec).importList
    iconPackage
    layouts := bindings.values.map LayoutImports.layout
    viewGroups := (bindings.filter fun (_, l) => !l.views.isEmpty).map fun (key, l) =>
      ⟨key, l.views.values⟩
    routes := literal spec bindings
    runtime := runtimeText }

/-- The line of an import. -/
def importLine (i : Import) : String := "import " ++ i.binding ++ " from \"" ++ i.source ++ "\";"

/-- The lines of the views of a layout. -/
def ViewImports.lines (g : ViewImports) : List String :=
  "" :: ("// " ++ Name.capitalize g.layout ++ " Views") :: g.views.map importLine

/-- The lines of the icons. -/
def Parts.iconLines (p : Parts) : List String :=
  if p.icons.isEmpty then []
  else ["", "// Icons", "import \x7b " ++ p.icons ++ " \x7d from \"" ++ p.iconPackage ++ "\";"]

/-- The text of the routing module. -/
def Parts.text (p : Parts) : String :=
  Text.unlines <|
    ["import \x7b Route \x7d from \"react-router-dom\";"] ++ p.iconLines ++
    ["", "// Layouts"] ++ p.layouts.map importLine ++
    p.viewGroups.flatMap ViewImports.lines ++
    ["", "const routes = " ++ p.routes ++ ";", "", p.runtime]

end RouteScaffold.RoutingModule
