import RouteScaffold.Document

/-!
# Route specifications

A specification is a list of layouts, each with the views below it. A view is a leaf or a container
with views of its own; the views below one node are a forest (`Views`), so that everything that is
said of views is said by recursion on one type.
-/

namespace RouteScaffold

/-! ## 1. Views -/

/-- The attributes of a view. -/
structure ViewInfo where
  /-- Path segment, possibly empty. -/
  path : String
  title : String
  icon : String
  /-- Does the view show the sitemap? -/
  sitemap : Bool
  /-- Attributes without a meaning here, kept as they are. -/
  extra : Document.Fields
  deriving Inhabited

/-- Views side by side, each under its key. -/
inductive Views where
  | nil
  /-- A view without views below it. -/
  | leaf (key : String) (info : ViewInfo) (rest : Views)
  /-- A view with a mapping of views below it, possibly empty. -/
  | container (key : String) (info : ViewInfo) (children rest : Views)
  deriving Inhabited

namespace Views

/-- How many views there are, at all depths. -/
def count : Views → Nat
  | .nil => 0
  | .leaf _ _ rest => 1 + rest.count
  | .container _ _ children rest => 1 + children.count + rest.count

/-- Are there none? -/
def isEmpty : Views → Bool
  | .nil => true
  | _ => false

end Views

/-! ## 2. Layouts -/

/-- A layout: the root of one navigable surface. -/
structure Layout where
  /-- Path segment, possibly empty. -/
  path : String
  title : String
  /-- Layouts have no default icon. -/
  icon : Option String
  /-- Does the layout show the sidebar? -/
  sidebar : Bool
  /-- The views below it, if it has a mapping of views. -/
  children : Option Views
  /-- Attributes without a meaning here, kept as they are. -/
  extra : Document.Fields
  deriving Inhabited

/-- The views below a layout; none if it has no mapping of views. -/
def Layout.views (layout : Layout) : Views := layout.children.getD .nil

/-- A route specification: its layouts in order. -/
structure Spec where
  layouts : Keyed Layout
  deriving Inhabited

namespace Spec

/-- How many layouts there are. -/
def layoutCount (spec : Spec) : Nat := spec.layouts.length

/-- How many views there are, at all depths. -/
def viewCount (spec : Spec) : Nat :=
  spec.layouts.foldr (fun (_, layout) n => layout.views.count + n) 0

end Spec

/-- What a node gets for an attribute it does not give. -/
structure Defaults where
  title : String
  icon : String
  deriving DecidableEq, Repr

/-- The defaults when nothing else is configured. -/
def Defaults.standard : Defaults := ⟨"Insert title", "AiFillHome"⟩

end RouteScaffold
