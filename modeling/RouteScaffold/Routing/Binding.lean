import RouteScaffold.Name
import RouteScaffold.Spec.Tour

/-!
# Import bindings

The routing module imports every layout and every view under a name of its own (`Bindings.ofSpec`). A
layout is imported under its layout name and a view under its view name; where another layout's view took
that name, the name of the layout is put ahead, and if that is taken too, a number from 2 on is added.
-/

namespace RouteScaffold

/-- One import of the routing module. -/
structure Import where
  /-- The name it is imported under. -/
  binding : String
  /-- Where it is imported from, seen from the routing module. -/
  source : String
  deriving DecidableEq, Repr

/-- The imports of a layout and its views. -/
structure LayoutImports where
  layout : Import
  /-- The imports of the views in tour order, by view key. -/
  views : Keyed Import
  deriving DecidableEq, Repr

/-- The imports of all layouts, by layout key. -/
abbrev Bindings := Keyed LayoutImports

namespace Bindings

/-! ## 1. Free names -/

/-- The candidates behind the prefixed name: it with a number. -/
def numbered (stem : String) (n : Nat) : String := s!"{stem}{n}"

/-- The first candidate from number `n` on that is not taken; at most `fuel` are passed over. -/
def firstFree (taken : List String) (stem : String) : Nat → Nat → String
  | 0, n => numbered stem n
  | fuel + 1, n =>
    if taken.contains (numbered stem n) then firstFree taken stem fuel (n + 1)
    else numbered stem n

/-- A free name for a view: its own, else with the layout ahead, else with a number behind. -/
def freeName (taken : List String) (layout name : String) : String :=
  let prefixed := Name.capitalize layout ++ name
  if !taken.contains name then name
  else if !taken.contains prefixed then prefixed
  else firstFree taken prefixed taken.length 2

/-! ## 2. The table -/

/-- A table under construction. -/
structure Builder where
  table : Bindings
  taken : List String

/-- The import of a layout. -/
def layoutImport (key : String) : Import :=
  let name := Name.layout key
  ⟨name, s!"../Layouts/{name}/{name}"⟩

/-- Where a view is imported from. -/
def viewSource (layout key : String) : String :=
  "../Views/" ++ Name.capitalize layout ++ "/" ++ Name.view key

/-- Adds a view to the imports of its layout. -/
def addView (table : Bindings) (layout key : String) (imp : Import) : Bindings :=
  table.map fun (k, l) => if k = layout then (k, { l with views := l.views.set key imp }) else (k, l)

/-- Takes a free name for a view of a layout. -/
def Builder.claim (b : Builder) (layout name : String) : String × Builder :=
  let free := freeName b.taken layout name
  (free, { b with taken := free :: b.taken })

/-- Takes in an event of the tour. -/
def Builder.visit (b : Builder) : TourEvent → Builder
  | .enterLayout key _ => { b with table := b.table.set key ⟨layoutImport key, []⟩ }
  | .enterView standing _ =>
    let (name, b) := b.claim standing.layout (Name.view standing.key)
    let imp : Import := ⟨name, viewSource standing.layout standing.key⟩
    { b with table := addView b.table standing.layout standing.key imp }
  | _ => b

/-- The bindings of a specification. Layout names are taken before all view names. -/
def ofSpec (spec : Spec) : Bindings :=
  (spec.tour.foldl Builder.visit ⟨[], spec.layouts.keys.map Name.layout⟩).table

/-! ## 3. Looking up -/

/-- The import of a layout. -/
def layout? (table : Bindings) (key : String) : Option Import :=
  (Keyed.get? table key).map LayoutImports.layout

/-- The import of a view of a layout. -/
def view? (table : Bindings) (layout key : String) : Option Import :=
  (Keyed.get? table layout).bind fun l => l.views.get? key

end Bindings

end RouteScaffold
