import RouteScaffold.Template.Read
import RouteScaffold.Template.Render

/-!
# Template engines

The files of a project are rendered from templates, one for each kind of file (`Slot`). How a template is read and
rendered is left to an engine (`TemplateEngine`): nothing is assumed of which texts it takes for templates, or of what
it makes of them. The engine of this library (`TemplateEngine.standard`) knows tags that write, the blocks `if`,
`unless` and `each`, and the helpers of generated files.
-/

namespace RouteScaffold

/-! ## 1. Kinds of files -/

/-- The kinds of generated files. -/
inductive Slot where
  | layout
  | sidebarLayout
  | view
  | viewIndex
  | routes
  deriving DecidableEq, Repr

namespace Slot

/-- All kinds, in the order in which templates are looked for. -/
def all : List Slot := [.layout, .sidebarLayout, .view, .viewIndex, .routes]

/-- The name under which the template of a kind is registered. -/
def name : Slot → String
  | .layout => "layout"
  | .sidebarLayout => "sidebar_layout"
  | .view => "view"
  | .viewIndex => "view_index"
  | .routes => "routes"

/-- The file that a template for this kind is in. -/
def file : Slot → String
  | .layout => "Layout.jsx.hbs"
  | .sidebarLayout => "SidebarLayout.jsx.hbs"
  | .view => "View.jsx.hbs"
  | .viewIndex => "ViewIndex.js.hbs"
  | .routes => "routes.js.hbs"

end Slot

/-! ## 2. Engines -/

/-- What an engine finds wrong with a template: a sentence, and what is behind it. -/
structure TemplateFault where
  message : String
  behind : List String
  deriving DecidableEq, Repr

/-- An engine for templates. -/
structure TemplateEngine where
  /-- Reads the text of a template, under its name. -/
  compile : Slot → String → Except TemplateFault Unit
  /-- Renders one of the templates, which are registered with their texts, with the value it is about. -/
  render : (Slot → String) → Slot → Document → Except TemplateFault String

/-! ## 3. The standard engine -/

/-- The fault of a text that is no template. -/
def Template.notRead : TemplateFault := ⟨"not a template", []⟩

/-- What an engine tells of an error: where it arose, and the reason behind it. -/
def Template.Error.fault (slot : Slot) (e : Template.Error) : TemplateFault := ⟨e.message slot.name, [e.reason.message]⟩

/-- The engine that reads and renders templates as this library does. -/
def TemplateEngine.standard : TemplateEngine where
  compile _ text :=
    match Template.read? text with
    | some _ => .ok ()
    | none => .error Template.notRead
  render source slot value :=
    match Template.read? (source slot) with
    | some t => (t.render value).mapError (·.fault slot)
    | none => .error Template.notRead

end RouteScaffold
