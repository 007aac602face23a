import RouteScaffold.Spec.Tour

/-!
# The tour as a list of views

* `Views.nodes`: the views of a forest in tour order, each ahead of those below it, without where they stand;
* `entered_tour`: the tour of a forest enters exactly its nodes, in this order;
* `walk_eq_forM`: a walk is the visitor run over the events of the tour one by one, so that it stops where the
  visitor stops.
-/

namespace RouteScaffold

/-! ## 1. Nodes -/

/-- The views of a forest in order, each ahead of those below it. -/
def Views.nodes : Views → List (String × ViewInfo)
  | .nil => []
  | .leaf key info rest => (key, info) :: rest.nodes
  | .container key info children rest => (key, info) :: (children.nodes ++ rest.nodes)

/-- The keys of the views of a forest in order. -/
def Views.keys (views : Views) : List String := views.nodes.map Prod.fst

theorem Layout.views_none {layout : Layout} (h : layout.children = none) : layout.views = .nil := by
  rw [views, h]
  rfl

theorem Layout.views_some {layout : Layout} {views : Views} (h : layout.children = some views) :
    layout.views = views := by
  rw [Layout.views, h]
  rfl

theorem Views.keys_container (key : String) (info : ViewInfo) (children rest : Views) :
    (Views.container key info children rest).keys = key :: (children.keys ++ rest.keys) := by
  simp [keys, nodes]

theorem Views.length_nodes (views : Views) : views.nodes.length = views.count := by
  induction views with
  | nil => rfl
  | leaf key info rest ih =>
      simp only [nodes, count, List.length_cons, ih]
      omega
  | container key info children rest ihc ih =>
      simp only [nodes, count, List.length_cons, List.length_append, ihc, ih]
      omega

/-! ## 2. Events -/

/-- The view that an event enters, if it enters one. -/
def TourEvent.entered? : TourEvent → Option (String × ViewInfo)
  | .enterView standing view => some (standing.key, view.toViewInfo)
  | _ => none

/-- **The tour of views enters exactly their nodes, in order.** -/
theorem Views.entered_tour (layout : String) (views : Views) (parent : Option String) (depth : Nat) :
    (views.tour layout parent depth).filterMap TourEvent.entered? = views.nodes := by
  induction views generalizing parent depth with
  | nil => rfl
  | leaf key info rest ih => simp [tour, nodes, TourEvent.entered?, List.filterMap_cons, ih]
  | container key info children rest ihc ih =>
      simp [tour, nodes, TourEvent.entered?, List.filterMap_cons, ihc, ih]

theorem Layout.entered_tour (key : String) (layout : Layout) :
    (layout.tour key).filterMap TourEvent.entered? = layout.views.nodes := by
  simp [tour, TourEvent.entered?, List.filterMap_cons, Views.entered_tour]

/-! ## 3. Walks -/

section Walk

variable {σ ε : Type} (visitor : TourEvent → Visit σ ε Unit)

/-- **A walk through views runs the visitor over their tour.** -/
theorem Views.walk_eq_forM (layout : String) (views : Views) (parent : Option String) (depth : Nat) :
    views.walk visitor layout parent depth = (views.tour layout parent depth).forM visitor := by
  induction views generalizing parent depth with
  | nil => rfl
  | leaf key info rest ih => simp [walk, tour, ih]
  | container key info children rest ihc ih => simp [walk, tour, ihc, ih]

theorem Layout.walk_eq_forM (key : String) (layout : Layout) :
    layout.walk visitor key = (layout.tour key).forM visitor := by
  simp [walk, tour, Views.walk_eq_forM]

end Walk

/-- The visitor that writes down the events and never stops. -/
def record (event : TourEvent) : Visit (List TourEvent) Empty Unit := modify (· ++ [event])

theorem forM_record (events seen : List TourEvent) :
    (events.forM record).run seen = (.ok (), seen ++ events) := by
  induction events generalizing seen with
  | nil =>
      rw [List.append_nil]
      rfl
  | cons event rest ih =>
      show (rest.forM record).run (seen ++ [event]) = _
      rw [ih, List.append_assoc]
      rfl

/-- The events that a visitor which never stops sees of a layout. -/
def Layout.visited (key : String) (layout : Layout) : List TourEvent :=
  ((layout.walk record key).run []).2

theorem Layout.visited_eq (key : String) (layout : Layout) : layout.visited key = layout.tour key := by
  unfold visited
  rw [walk_eq_forM, forM_record]
  rfl

end RouteScaffold
