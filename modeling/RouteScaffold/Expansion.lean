import RouteScaffold.Renderer
import RouteScaffold.Spec.Tour

/-!
# Expansion of a specification

The files that a specification stands for: a directory for each layout, with its component and its
stylesheet, and off it a directory for each view, with its component, its index and its stylesheet. All views
of a layout have their directories side by side in one directory named for the layout; in the plan they hang
off the view they stand below. The plan of a layout is made on a walk through it (`Planner`).
-/

namespace RouteScaffold.Expansion

/-! ## 1. The files of a node -/

/-- The directory of the generated sources, seen from the project. -/
def sourceDirectory : String := "src"

/-- The directory of a layout. -/
def layoutDirectory (key : String) : String :=
  Path.join (Path.join sourceDirectory "Layouts") (Name.layout key)

/-- The directory of a view of a layout. -/
def viewDirectory (layout key : String) : String :=
  Path.join (Path.join (Path.join sourceDirectory "Views") (Name.capitalize layout)) (Name.view key)

/-- The stylesheet of a component in a directory. -/
def stylesheet (directory name : String) : String := Path.join directory (name ++ ".module.css")

/-- The component in a directory. -/
def component (directory name : String) : String := Path.join directory (name ++ ".jsx")

/-- The files of a layout. -/
def layoutFiles (r : Renderer) (key : String) (layout : Layout) :
    Except RenderFault (List Artifact) := do
  let name := Name.layout key
  let directory := layoutDirectory key
  let text ← r.layout key layout.sidebar
  let style := if layout.sidebar then Content.copied Component.sidebarStylesheet else .empty
  .ok [⟨component directory name, .rendered text⟩, ⟨stylesheet directory name, style⟩]

/-- The files of a view. -/
def viewFiles (r : Renderer) (layout key : String) (info : ViewInfo) :
    Except RenderFault (List Artifact) := do
  let name := Name.view key
  let directory := viewDirectory layout key
  let text ← r.view key info.title info.sitemap
  let index ← r.viewIndex key
  .ok [⟨component directory name, .rendered text⟩, ⟨Path.join directory "index.jsx", .rendered index⟩,
    ⟨stylesheet directory name, .empty⟩]

/-! ## 2. The planner -/

/-- A planned directory with the directories that hang off it so far. -/
structure Branch where
  directory : String
  files : List Artifact
  nested : Groups
  deriving DecidableEq, Repr, Inhabited

/-- The directory alone, with what hangs off it. -/
def Branch.groups (b : Branch) : Groups := .group b.directory b.files b.nested .nil

/-- The directory with more that hangs off it. -/
def Branch.extend (b : Branch) (more : Groups) : Branch := { b with nested := b.nested.append more }

/-- What is planned while a layout is gone through. -/
structure Planner where
  /-- The directories of the nodes that were entered and not yet left, the innermost first. -/
  stack : List Branch
  /-- The directory that was left without another around it. -/
  finished : Option Branch

namespace Planner

/-- Nothing is planned yet. -/
def start : Planner := ⟨[], none⟩

/-- A node is entered: its directory is the innermost. -/
def enter (p : Planner) (b : Branch) : Planner := { p with stack := b :: p.stack }

/-- A node is left: its directory hangs off the one around it, or is finished. -/
def leave (p : Planner) : Planner :=
  match p.stack with
  | [] => p
  | [b] => ⟨[], some b⟩
  | b :: parent :: rest => { p with stack := parent.extend b.groups :: rest }

/-- The visitor that plans the directories. -/
def visit (r : Renderer) : TourEvent → Visit Planner RenderFault Unit
  | .enterLayout key layout => do
    let files ← layoutFiles r key layout
    modify (·.enter ⟨layoutDirectory key, files, .nil⟩)
  | .enterView standing view => do
    let files ← viewFiles r standing.layout standing.key view.toViewInfo
    modify (·.enter ⟨viewDirectory standing.layout standing.key, files, .nil⟩)
  | .leaveLayout _ _ => modify leave
  | .leaveView _ _ => modify leave

end Planner

/-- The directory of a layout, with those of its views. -/
def ofLayout (r : Renderer) (key : String) (layout : Layout) : Except RenderFault Branch :=
  match (layout.walk (Planner.visit r) key).run .start with
  | (.error fault, _) => .error fault
  | (.ok (), p) => .ok (p.finished.getD default)

/-- The directories of layouts side by side. -/
def ofLayouts (r : Renderer) : Keyed Layout → Except RenderFault Groups
  | [] => .ok .nil
  | (key, layout) :: rest => do
    let b ← ofLayout r key layout
    .ok (.group b.directory b.files b.nested (← ofLayouts r rest))

/-- The directories of a specification. -/
def ofSpec (r : Renderer) (spec : Spec) : Except RenderFault Groups := ofLayouts r spec.layouts

end RouteScaffold.Expansion
