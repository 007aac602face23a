import RouteScaffold.Routing.Binding
import RouteScaffold.Text.Quoted

/-!
# The literal of the routes

The object literal by which the routing module holds the specification: for each node its path, component,
title and icon, and an object of the nodes below it. It is written line by line, two blanks for each level;
path and title are quoted, so that no line end comes from them.
-/

namespace RouteScaffold.RoutingModule

/-- A line at a level. -/
def line (depth : Nat) (text : String) : String := String.join (List.replicate depth "  ") ++ text

/-- The line of a field. -/
def fieldLine (depth : Nat) (name value : String) : String := line depth (name ++ ": " ++ value ++ ",")

/-- An element of a component. -/
def tagText (component : String) : String := "<" ++ component ++ " />"

/-- The lines that begin a node. -/
def openLines (depth : Nat) (key path element title : String) : List String :=
  [line depth (key ++ ": \x7b"),
   fieldLine (depth + 1) "path" (Text.quote path),
   fieldLine (depth + 1) "element" (tagText element),
   fieldLine (depth + 1) "title" (Text.quote title)]

/-- The line that ends a node or an object of nodes. -/
def closeLine (depth : Nat) : String := line depth "\x7d,"

/-- The line that begins an object of nodes. -/
def routesLine (depth : Nat) : String := line depth "routes: \x7b"

/-- The component of a view as the literal names it. -/
def elementOf (bindings : Bindings) (layout key : String) : String :=
  ((bindings.view? layout key).map Import.binding).getD ""

/-- The lines of views side by side. -/
def viewLines (bindings : Bindings) (layout : String) : Nat → Views → List String
  | _, .nil => []
  | depth, .leaf key info rest =>
    openLines depth key info.path (elementOf bindings layout key) info.title ++
      fieldLine (depth + 1) "icon" (tagText info.icon) ::
      closeLine depth :: viewLines bindings layout depth rest
  | depth, .container key info children rest =>
    openLines depth key info.path (elementOf bindings layout key) info.title ++
      fieldLine (depth + 1) "icon" (tagText info.icon) ::
      routesLine (depth + 1) ::
      (viewLines bindings layout (depth + 2) children ++
        closeLine (depth + 1) :: closeLine depth :: viewLines bindings layout depth rest)

/-- The lines of a layout. -/
def layoutLines (bindings : Bindings) (key : String) (layout : Layout) : List String :=
  let element := ((bindings.layout? key).map Import.binding).getD ""
  openLines 1 key layout.path element layout.title ++
    (layout.icon.map fun icon => fieldLine 2 "icon" (tagText icon)).toList ++
    (match layout.children with
      | none => []
      | some views => routesLine 2 :: (viewLines bindings key 3 views ++ [closeLine 2])) ++
    [closeLine 1]

/-- The literal of a specification. -/
def literal (spec : Spec) (bindings : Bindings) : String :=
  if spec.layouts.isEmpty then "\x7b\x7d"
  else
    let inner := spec.layouts.flatMap fun (key, layout) => layoutLines bindings key layout
    "\n".intercalate ("\x7b" :: inner ++ ["\x7d"])

end RouteScaffold.RoutingModule
