import RouteScaffold.Artifact
import RouteScaffold.Component
import RouteScaffold.Path
import RouteScaffold.RoutingModule.Parts
import RouteScaffold.Template.Builtin

/-!
# Rendering the generated files

A `Renderer` writes the generated components and the routing module. For each kind of file it has a built-in text,
which a template of the user may replace (`Renderer.ofOverrides`). Built-in texts never fail; a template of the user
fails where its engine finds a fault.
-/

namespace RouteScaffold

/-! ## 1. Renderers -/

/-- What replaces built-in texts: for a kind of file, what is written for the value that the file is about. -/
structure Renderer where
  templates : List (Slot × (Document → Except TemplateFault String))
  deriving Inhabited

/-- Why a file is not rendered: the kind of file and the fault in its template. -/
structure RenderFault where
  slot : Slot
  cause : TemplateFault
  deriving DecidableEq, Repr

/-- The fault as a sentence. -/
def RenderFault.message (f : RenderFault) : String := "render error: " ++ f.cause.message

/-- Templates of the user, each for a kind of file. -/
abbrev Overrides := List (Slot × String)

/-- The texts with which templates are registered: those of the user in place of the built-in ones. -/
def Overrides.source (overrides : Overrides) (slot : Slot) : String := (overrides.lookup slot).getD slot.source

namespace Renderer

/-- The renderer with built-in texts only. -/
def builtin : Renderer := ⟨[]⟩

/-- The renderer with templates of the user. -/
def ofOverrides (engine : TemplateEngine) (overrides : Overrides) : Renderer :=
  ⟨overrides.map fun (slot, _) => (slot, engine.render overrides.source slot)⟩

/-- Renders a file by the template for its kind, or else by the built-in text. -/
def render (r : Renderer) (slot : Slot) (value : Document) (text : String) :
    Except RenderFault String :=
  match r.templates.lookup slot with
  | none => .ok text
  | some write => (write value).mapError (⟨slot, ·⟩)

/-- What the template of a component is told about its key. -/
def keyField (key : String) : String × Document := ("componentKey", .text key)

/-- Renders the component of a layout. -/
def layout (r : Renderer) (key : String) (sidebar : Bool) : Except RenderFault String :=
  if sidebar then r.render .sidebarLayout (.map [keyField key]) (Component.sidebarLayout key)
  else r.render .layout (.map [keyField key]) (Component.layout key)

/-- Renders the component of a view. -/
def view (r : Renderer) (key title : String) (sitemap : Bool) : Except RenderFault String :=
  r.render .view (.map [keyField key, ("title", .text title), ("sitemap", .bool sitemap)])
    (Component.view key title sitemap)

/-- Renders the index of a view. -/
def viewIndex (r : Renderer) (key : String) : Except RenderFault String :=
  r.render .viewIndex (.map [keyField key]) (Component.viewIndex key)

/-- What the template of the routing module is told about an import. -/
def importValue (i : Import) : Document :=
  .map [("binding", .text i.binding), ("source", .text i.source)]

/-- What the template of the routing module is told about a layout's views. -/
def viewsValue (g : RoutingModule.ViewImports) : Document :=
  .map [("layoutKey", .text g.layout), ("views", .list (g.views.map importValue))]

/-- What the template of the routing module is told. -/
def partsValue (p : RoutingModule.Parts) : Document :=
  .map [("icons", .text p.icons), ("iconPackage", .text p.iconPackage),
    ("layouts", .list (p.layouts.map importValue)),
    ("viewGroups", .list (p.viewGroups.map viewsValue)),
    ("routes", .text p.routes), ("runtime", .text p.runtime)]

/-- Renders the routing module. -/
def routes (r : Renderer) (p : RoutingModule.Parts) : Except RenderFault String :=
  r.render .routes (partsValue p) p.text

end Renderer

end RouteScaffold
