import RouteScaffold.Name
import RouteScaffold.Spec

/-!
# Violations of the schema

What can be wrong with a document as a route specification: a `Violation` is a `Cause` at a location.
`Spec.violations` finds them all, in document order and at each node in the order key, name, kind of
value, attributes, children. The views of one layout share a directory, so a view name may be used once
in a layout, whatever the depth; `Taken` holds the names seen so far and where.
-/

namespace RouteScaffold

/-! ## 1. Violations -/

/-- Where a value of a document is: the keys that lead to it. -/
abbrev Location := List String

/-- The location as a text; the document itself is a dollar sign. -/
def Location.text : Location → String
  | [] => "$"
  | keys => ".".intercalate keys

/-- What is wrong. -/
inductive Cause where
  | documentNotMap
  | layoutNotMap
  | viewNotMap
  | routesNotMap
  | badKey (key : String)
  | layoutTaken (name previous : String)
  | viewTaken (name : String) (previous : Location)
  | notText (found : String)
  | notTruth (found : String)
  | sidebarInView
  | badIcon (icon : String)
  | reservedIcon (icon : String)
  deriving DecidableEq, Repr

/-- The wording of a cause. -/
def Cause.message : Cause → String
  | .documentNotMap => "the document must be a mapping of layouts"
  | .layoutNotMap => "a layout must be a mapping"
  | .viewNotMap => "a route node must be a mapping"
  | .routesNotMap => "must be a mapping of route nodes"
  | .badKey key => s!"key `{key}` is not a valid identifier fragment"
  | .layoutTaken name previous => s!"layout name `{name}` collides with layout `{previous}`"
  | .viewTaken name previous =>
    s!"view name `{name}` is already generated by `{previous.text}` in the same layout"
  | .notText found => s!"must be a string, found {found}"
  | .notTruth found => s!"must be a boolean, found {found}"
  | .sidebarInView => "`sidebar` is only allowed on top-level layouts"
  | .badIcon icon => s!"icon `{icon}` is not a valid identifier"
  | .reservedIcon icon => s!"icon `{icon}` clashes with a name the routing module defines"

/-- A cause and where it is. -/
structure Violation where
  location : Location
  cause : Cause
  deriving DecidableEq, Repr

/-- The violation as a line. -/
def Violation.line (v : Violation) : String := v.location.text ++ ": " ++ v.cause.message

/-! ## 2. Attributes -/

namespace Spec

/-- The field that holds the views below a node. -/
def childrenField : String := "routes"

/-- The fields of a layout that have a meaning. -/
def layoutFields : List String := ["path", "title", "icon", "sidebar", childrenField]

/-- The fields of a view that have a meaning. -/
def viewFields : List String := ["path", "title", "icon", "sitemap", childrenField]

/-- The names that the routing module binds itself. -/
def reservedNames : List String :=
  ["Route", "routes", "paths", "routeComponents", "sitemap", "joinPath", "buildPaths",
   "buildElementTree", "buildSitemap"]

/-- The text under a field, if there is one. -/
def text? (fields : Document.Fields) (name : String) : Option String :=
  match fields.get? name with
  | some (.text s) => some s
  | _ => none

/-- The truth value under a field, if there is one. -/
def truth? (fields : Document.Fields) (name : String) : Option Bool :=
  match fields.get? name with
  | some (.bool b) => some b
  | _ => none

/-- A field that is there has to be a text. -/
def textViolations (fields : Document.Fields) (location : Location) (name : String) :
    List Violation :=
  match fields.get? name with
  | none | some (.text _) => []
  | some other => [⟨location ++ [name], .notText other.kind⟩]

/-- A field that is there has to be a truth value. -/
def truthViolations (fields : Document.Fields) (location : Location) (name : String) :
    List Violation :=
  match fields.get? name with
  | none | some (.bool _) => []
  | some other => [⟨location ++ [name], .notTruth other.kind⟩]

/-- A key has to be an identifier fragment. -/
def keyViolations (location : Location) (key : String) : List Violation :=
  if Name.isIdentifier key then [] else [⟨location, .badKey key⟩]

/-- An icon has to be an identifier that the routing module does not bind itself. -/
def iconViolations (location : Location) (icon : String) : List Violation :=
  if !Name.isIdentifier icon then [⟨location ++ ["icon"], .badIcon icon⟩]
  else if reservedNames.contains icon then [⟨location ++ ["icon"], .reservedIcon icon⟩]
  else []

/-- The violations of a view's own attributes. -/
def viewAttributeViolations (defaults : Defaults) (location : Location) (fields : Document.Fields) :
    List Violation :=
  (if (fields.get? "sidebar").isSome then [⟨location ++ ["sidebar"], .sidebarInView⟩] else []) ++
  textViolations fields location "path" ++
  textViolations fields location "title" ++
  textViolations fields location "icon" ++
  iconViolations location ((text? fields "icon").getD defaults.icon) ++
  truthViolations fields location "sitemap"

/-- The violations of a layout's own attributes. -/
def layoutAttributeViolations (location : Location) (fields : Document.Fields) : List Violation :=
  textViolations fields location "path" ++
  textViolations fields location "title" ++
  textViolations fields location "icon" ++
  ((text? fields "icon").map (iconViolations location)).getD [] ++
  truthViolations fields location "sidebar"

/-! ## 3. Views -/

/-- The view names of a layout that were seen, with the view that was first. -/
abbrev Taken := Keyed Location

/-- A view name may be used once; the names with this one added. -/
def takeView (taken : Taken) (location : Location) (key : String) : List Violation × Taken :=
  match taken.get? (Name.view key) with
  | some previous => ([⟨location, .viewTaken (Name.view key) previous⟩], taken)
  | none => ([], (Name.view key, location) :: taken)

mutual

/-- The violations below a node with these fields. -/
def childrenViolations (defaults : Defaults) (location : Location) (taken : Taken) :
    List (String × Document) → List Violation × Taken
  | [] => ([], taken)
  | (name, value) :: rest =>
    if name = childrenField then
      routesViolations defaults (location ++ [childrenField]) taken value
    else childrenViolations defaults location taken rest

/-- The violations of a value that should map keys to views. -/
def routesViolations (defaults : Defaults) (location : Location) (taken : Taken) :
    Document → List Violation × Taken
  | .map entries => viewsViolations defaults location taken entries
  | _ => ([⟨location, .routesNotMap⟩], taken)

/-- The violations of views side by side. -/
def viewsViolations (defaults : Defaults) (location : Location) (taken : Taken) :
    List (String × Document) → List Violation × Taken
  | [] => ([], taken)
  | (key, value) :: rest =>
    let here := location ++ [key]
    let (clash, taken) := takeView taken here key
    let (inner, taken) := viewViolations defaults here taken value
    let (later, taken) := viewsViolations defaults location taken rest
    (keyViolations here key ++ clash ++ inner ++ later, taken)

/-- The violations of a value that should be a view. -/
def viewViolations (defaults : Defaults) (location : Location) (taken : Taken) :
    Document → List Violation × Taken
  | .map fields =>
    let (below, taken) := childrenViolations defaults location taken fields
    (viewAttributeViolations defaults location fields ++ below, taken)
  | _ => ([⟨location, .viewNotMap⟩], taken)

end

/-! ## 4. Layouts and documents -/

/-- The violations of a value that should be a layout. -/
def layoutViolations (defaults : Defaults) (location : Location) : Document → List Violation
  | .map fields =>
    layoutAttributeViolations location fields ++ (childrenViolations defaults location [] fields).1
  | _ => [⟨location, .layoutNotMap⟩]

/-- The violations of layouts side by side. A layout name may be used once; `taken` holds the names seen
so far with the key that came last. -/
def layoutsViolations (defaults : Defaults) :
    Keyed String → List (String × Document) → List Violation
  | _, [] => []
  | taken, (key, value) :: rest =>
    let name := Name.layout key
    let clash := (taken.get? name).elim [] fun previous => [⟨[key], .layoutTaken name previous⟩]
    keyViolations [key] key ++ clash ++ layoutViolations defaults [key] value ++
      layoutsViolations defaults (taken.set name key) rest

/-- All violations of a document. -/
def violations (defaults : Defaults) : Document → List Violation
  | .map entries => layoutsViolations defaults [] entries
  | _ => [⟨[], .documentNotMap⟩]

end Spec

end RouteScaffold
