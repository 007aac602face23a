import RouteScaffold.Spec.Tour

/-!
# Icons in use

The icons of a specification in order of their first use, each once. A node's icon comes before the icons
below it.
-/

namespace RouteScaffold

/-- Icons in order of their first insertion. -/
structure IconSet where
  icons : List String
  deriving DecidableEq, Repr, Inhabited

namespace IconSet

/-- No icons. -/
def empty : IconSet := ⟨[]⟩

/-- Is the icon in the set? -/
def contains (s : IconSet) (icon : String) : Bool := s.icons.contains icon

/-- Adds an icon at the end, unless it is there. Says whether it is new. -/
def add (s : IconSet) (icon : String) : Bool × IconSet :=
  if s.contains icon then (false, s) else (true, ⟨s.icons ++ [icon]⟩)

/-- The set with an icon, at the end if it is new. -/
def insert (s : IconSet) (icon : String) : IconSet := (s.add icon).2

/-- The icon that an event brings, if any. -/
def iconOf? : TourEvent → Option String
  | .enterLayout _ layout => layout.icon
  | .enterView _ view => some view.icon
  | _ => none

/-- The icons of a specification. -/
def ofSpec (spec : Spec) : IconSet :=
  spec.tour.foldl (fun s event => (iconOf? event).elim s s.insert) empty

/-- The icons as an import clause lists them. -/
def importList (s : IconSet) : String := ", ".intercalate s.icons

end IconSet

end RouteScaffold
