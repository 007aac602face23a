import RouteScaffold.Spec

/-!
# The tour of a specification

Layouts and views are visited in document order, each view before the views below it, and every node is
left after all that is below it. `Spec.tour` is the list of these events; `Spec.walk` takes a visitor
through the tree and stops at its first error, keeping what the visitor made of the events before.
Whatever needs an order of the views takes it from here.
-/

namespace RouteScaffold

/-! ## 1. Events -/

/-- Where a view stands. -/
structure Standing where
  /-- The key of the layout it belongs to. -/
  layout : String
  key : String
  /-- The key of the view it stands below; none right below the layout. -/
  parent : Option String
  /-- How deep it stands below the layout, from 1. -/
  depth : Nat
  deriving DecidableEq, Repr

/-- A view with what is below it. -/
structure ViewNode extends ViewInfo where
  /-- The views below it, if it has a mapping of views. -/
  children : Option Views
  deriving Inhabited

/-- One event of the tour. -/
inductive TourEvent where
  | enterLayout (key : String) (layout : Layout)
  | leaveLayout (key : String) (layout : Layout)
  | enterView (standing : Standing) (view : ViewNode)
  | leaveView (standing : Standing) (view : ViewNode)

/-! ## 2. The list of events -/

/-- The events of views side by side. -/
def Views.tour (layout : String) : Option String → Nat → Views → List TourEvent
  | _, _, .nil => []
  | parent, depth, .leaf key info rest =>
    let standing : Standing := ⟨layout, key, parent, depth⟩
    .enterView standing ⟨info, none⟩ :: .leaveView standing ⟨info, none⟩ :: rest.tour layout parent depth
  | parent, depth, .container key info children rest =>
    let standing : Standing := ⟨layout, key, parent, depth⟩
    .enterView standing ⟨info, some children⟩ ::
      (children.tour layout (some key) (depth + 1) ++
        .leaveView standing ⟨info, some children⟩ :: rest.tour layout parent depth)

/-- The events of a layout. -/
def Layout.tour (key : String) (layout : Layout) : List TourEvent :=
  .enterLayout key layout :: (layout.views.tour key none 1 ++ [.leaveLayout key layout])

/-- The events of a specification. -/
def Spec.tour (spec : Spec) : List TourEvent :=
  spec.layouts.flatMap fun (key, layout) => layout.tour key

/-! ## 3. Visitors -/

/-- What a visitor with a state does: it goes on, or stops with an error. -/
abbrev Visit (σ ε : Type) : Type → Type := ExceptT ε (StateM σ)

/-- Takes a visitor through views side by side. -/
def Views.walk {σ ε : Type} (visitor : TourEvent → Visit σ ε Unit) (layout : String) :
    Option String → Nat → Views → Visit σ ε Unit
  | _, _, .nil => pure ()
  | parent, depth, .leaf key info rest => do
    let standing : Standing := ⟨layout, key, parent, depth⟩
    visitor (.enterView standing ⟨info, none⟩)
    visitor (.leaveView standing ⟨info, none⟩)
    rest.walk visitor layout parent depth
  | parent, depth, .container key info children rest => do
    let standing : Standing := ⟨layout, key, parent, depth⟩
    visitor (.enterView standing ⟨info, some children⟩)
    children.walk visitor layout (some key) (depth + 1)
    visitor (.leaveView standing ⟨info, some children⟩)
    rest.walk visitor layout parent depth

/-- Takes a visitor through a layout. -/
def Layout.walk {σ ε : Type} (visitor : TourEvent → Visit σ ε Unit) (key : String) (layout : Layout) :
    Visit σ ε Unit := do
  visitor (.enterLayout key layout)
  layout.views.walk visitor key none 1
  visitor (.leaveLayout key layout)

/-- Takes a visitor through layouts side by side. -/
def Spec.walkLayouts {σ ε : Type} (visitor : TourEvent → Visit σ ε Unit) : Keyed Layout → Visit σ ε Unit
  | [] => pure ()
  | (key, layout) :: rest => do
    layout.walk visitor key
    walkLayouts visitor rest

/-- Takes a visitor through a specification. -/
def Spec.walk {σ ε : Type} (visitor : TourEvent → Visit σ ε Unit) (spec : Spec) : Visit σ ε Unit :=
  walkLayouts visitor spec.layouts

end RouteScaffold
