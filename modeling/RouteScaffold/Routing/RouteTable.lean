import RouteScaffold.Routing.Binding

/-!
# Route tables

What the generated routing module computes when it is loaded, computed from the specification: the table
of full paths, the routing entries and the sitemap. A full path is the layout's path with the segments of
the views on the way joined to it (`joinPath`).
-/

namespace RouteScaffold

/-! ## 1. Joining paths -/

/-- Parent and segment side by side; a `/` on both sides of the seam is kept once. -/
def joinPath (parent segment : String) : String :=
  if parent.toList.getLast? = some '/' ∧ segment.toList.head? = some '/' then
    String.ofList (parent.toList.dropLast ++ segment.toList)
  else parent ++ segment

/-! ## 2. The path table -/

/-- Entries of the path table side by side: a full path under a key, or a table below it. -/
inductive PathTable where
  | nil
  | leaf (key path : String) (rest : PathTable)
  | nested (key : String) (children rest : PathTable)
  deriving DecidableEq, Repr, Inhabited

/-- An entry of the path table. -/
inductive PathEntry where
  | leaf (path : String)
  | nested (table : PathTable)
  deriving DecidableEq, Repr

namespace PathTable

/-- The entry under a key. -/
def get? : PathTable → String → Option PathEntry
  | .nil, _ => none
  | .leaf k path rest, key => if k = key then some (.leaf path) else rest.get? key
  | .nested k children rest, key => if k = key then some (.nested children) else rest.get? key

end PathTable

/-- The entry below an entry; a path has none. -/
def PathEntry.get? : PathEntry → String → Option PathEntry
  | .leaf _, _ => none
  | .nested table, key => table.get? key

/-- The path of an entry that is no table. -/
def PathEntry.path? : PathEntry → Option String
  | .leaf path => some path
  | .nested _ => none

/-- The path table of views below a path. -/
def Views.paths (parent : String) : Views → PathTable
  | .nil => .nil
  | .leaf key info rest => .leaf key (joinPath parent info.path) (rest.paths parent)
  | .container key info children rest =>
    .nested key (children.paths (joinPath parent info.path)) (rest.paths parent)

/-- The path table of layouts. -/
def PathTable.ofLayouts : Keyed Layout → PathTable
  | [] => .nil
  | (key, layout) :: rest =>
    match layout.children with
    | none => .leaf key layout.path (ofLayouts rest)
    | some views => .nested key (views.paths layout.path) (ofLayouts rest)

/-! ## 3. Routing entries -/

/-- The routing entry of a view. -/
structure ViewElement where
  key : String
  path : String
  /-- The component that is shown. -/
  element : String
  deriving DecidableEq, Repr

/-- The routing entry of a layout; its views are entries side by side, whatever their depth. -/
structure LayoutElement where
  key : String
  element : String
  views : List ViewElement
  deriving DecidableEq, Repr

/-- The component of a view, by its import or else by its name. -/
def viewElement (bindings : Bindings) (layout key : String) : String :=
  ((bindings.view? layout key).map Import.binding).getD (Name.view key)

/-- The routing entries of views below a path. -/
def Views.elements (bindings : Bindings) (layout : String) (parent : String) :
    Views → List ViewElement
  | .nil => []
  | .leaf key info rest =>
    ⟨key, joinPath parent info.path, viewElement bindings layout key⟩ ::
      rest.elements bindings layout parent
  | .container key info children rest =>
    let path := joinPath parent info.path
    ⟨key, path, viewElement bindings layout key⟩ ::
      (children.elements bindings layout path ++ rest.elements bindings layout parent)

/-- The routing entry of a layout. -/
def Layout.element (bindings : Bindings) (key : String) (layout : Layout) : LayoutElement where
  key := key
  element := ((bindings.layout? key).map Import.binding).getD (Name.layout key)
  views := layout.views.elements bindings key layout.path

/-! ## 4. The sitemap -/

/-- Items of the sitemap side by side: a title, where it leads, and the items below it. -/
inductive Sitemap where
  | nil
  | item (title href : String) (children rest : Sitemap)
  deriving DecidableEq, Repr, Inhabited

/-- The part of the sitemap below a layout, which itself leads nowhere. -/
structure SitemapSection where
  title : String
  items : Sitemap
  deriving DecidableEq, Repr

/-- The sitemap of views below a path. -/
def Views.sitemap (parent : String) : Views → Sitemap
  | .nil => .nil
  | .leaf _ info rest =>
    .item info.title (joinPath parent info.path) .nil (rest.sitemap parent)
  | .container _ info children rest =>
    let path := joinPath parent info.path
    .item info.title path (children.sitemap path) (rest.sitemap parent)

/-- The section of a layout. -/
def Layout.sitemapSection (layout : Layout) : SitemapSection :=
  ⟨layout.title, layout.views.sitemap layout.path⟩

/-- Depth, title and target of each item, an item before the items below it. -/
def Sitemap.flatten (depth : Nat) : Sitemap → List (Nat × String × String)
  | .nil => []
  | .item title href children rest =>
    (depth, title, href) :: (children.flatten (depth + 1) ++ rest.flatten depth)

/-- Depth and title of a section and of its items. -/
def SitemapSection.flatten (s : SitemapSection) : List (Nat × String) :=
  (0, s.title) :: (s.items.flatten 1).map fun (depth, title, _) => (depth, title)

/-- Where the items of a section lead. -/
def SitemapSection.links (s : SitemapSection) : List String :=
  (s.items.flatten 1).map fun (_, _, href) => href

/-! ## 5. The table -/

/-- Paths, routing entries and sitemap of a specification. -/
structure RouteTable where
  paths : PathTable
  elements : List LayoutElement
  sitemap : List SitemapSection
  deriving DecidableEq, Repr

namespace RouteTable

/-- The route table of a specification whose components are imported by `bindings`. -/
def build (spec : Spec) (bindings : Bindings) : RouteTable where
  paths := .ofLayouts spec.layouts
  elements := spec.layouts.map fun (key, layout) => layout.element bindings key
  sitemap := spec.layouts.map fun (_, layout) => layout.sitemapSection

/-- All links in sitemap order. -/
def links (table : RouteTable) : List String := table.sitemap.flatMap SitemapSection.links

/-- The entry that keys lead to, from the table on. -/
def lookup? (table : RouteTable) : List String → Option PathEntry
  | [] => none
  | key :: keys => keys.foldl (fun entry? k => entry?.bind (·.get? k)) (table.paths.get? key)

end RouteTable

end RouteScaffold
