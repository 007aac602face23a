import RouteScaffold.Proofs.Outcomes
import RouteScaffold.Proofs.Tour

/-!
# Walks go depth first

A walk runs its visitor over the events of one list, up to the first error (`Passes`, `Spec.walk_eq_forM`), and this
list goes through the specification depth first (`DepthFirst`): every node is entered once, in the order of the keys,
while exactly the nodes above it are open, and left once, as the innermost open node, when all that is below it was
left. What an event tells of where its view stands is read off the open nodes (`Standing.Of`). Main statement:
`walk_depth_first`.
-/

namespace RouteScaffold

/-! ## 1. Nodes and the nodes above them -/

/-- A node of a specification under its key. -/
inductive SpecNode where
  | layout (key : String) (layout : Layout)
  | view (key : String) (view : ViewNode)

namespace SpecNode

/-- The views right below a node. -/
def views : SpecNode → Views
  | .layout _ l => l.views
  | .view _ v => v.children.getD .nil

/-- The key of a node that is a view. -/
def viewKey? : SpecNode → Option String
  | .layout _ _ => none
  | .view key _ => some key

end SpecNode

/-- The lines of views side by side: each view with the nodes above it, the innermost first, and ahead of the lines of
    the views below it. -/
def Views.lines (above : List SpecNode) : Views → List (List SpecNode)
  | .nil => []
  | .leaf key info rest => (.view key ⟨info, none⟩ :: above) :: rest.lines above
  | .container key info children rest =>
    let line := .view key ⟨info, some children⟩ :: above
    line :: (children.lines line ++ rest.lines above)

/-- The lines of a layout. -/
def Layout.lines (key : String) (layout : Layout) : List (List SpecNode) :=
  [.layout key layout] :: layout.views.lines [.layout key layout]

/-- The lines of all nodes of a specification. -/
def Spec.lines (spec : Spec) : List (List SpecNode) := spec.layouts.flatMap fun (key, layout) => layout.lines key

/-! ## 2. Open nodes -/

/-- Where a view stands, read off its line. -/
structure Standing.Of (standing : Standing) (line : List SpecNode) : Prop where
  /-- The line begins at the layout, -/
  layout : ∃ layout, line.getLast? = some (.layout standing.layout layout)
  key : line.head?.bind SpecNode.viewKey? = some standing.key
  /-- right above the view is its parent, if that is a view, -/
  parent : standing.parent = line.tail.head?.bind SpecNode.viewKey?
  /-- and the depth is how many views the line holds. -/
  depth : standing.depth = (line.filterMap SpecNode.viewKey?).length

namespace TourEvent

/-- The node that an event enters, if it enters one. -/
def enters? : TourEvent → Option SpecNode
  | .enterLayout key layout => some (.layout key layout)
  | .enterView standing view => some (.view standing.key view)
  | _ => none

/-- The node that an event leaves, if it leaves one. -/
def leaves? : TourEvent → Option SpecNode
  | .leaveLayout key layout => some (.layout key layout)
  | .leaveView standing view => some (.view standing.key view)
  | _ => none

/-- What an event tells fits the line of its node: a layout has no node above it, and a view stands where it says. -/
def Fits (line : List SpecNode) : TourEvent → Prop
  | .enterLayout _ _ => line.length = 1
  | .leaveLayout _ _ => line.length = 1
  | .enterView standing _ => standing.Of line
  | .leaveView standing _ => standing.Of line

/-- The nodes that are open behind an event. -/
def shift (nodes : List SpecNode) (event : TourEvent) : List SpecNode :=
  match event.enters? with
  | some node => node :: nodes
  | none => nodes.tail

end TourEvent

/-- Events are nested behind open nodes, the innermost first: each event that leaves a node leaves the innermost one, in
    the end all nodes are left, and every event fits the line of its node. -/
inductive Nested : List SpecNode → List TourEvent → Prop
  | nil : Nested [] []
  | enter {event : TourEvent} {node : SpecNode} {above : List SpecNode} {rest : List TourEvent}
      (he : event.enters? = some node) (hf : event.Fits (node :: above)) (hr : Nested (node :: above) rest) :
      Nested above (event :: rest)
  | leave {event : TourEvent} {node : SpecNode} {above : List SpecNode} {rest : List TourEvent}
      (he : event.leaves? = some node) (hf : event.Fits (node :: above)) (hr : Nested above rest) :
      Nested (node :: above) (event :: rest)

/-- The nodes that are open behind events. -/
def openBehind (nodes : List SpecNode) (events : List TourEvent) : List SpecNode := events.foldl TourEvent.shift nodes

/-- The lines of the nodes that events enter: what is open when they are entered. -/
def enteredLines (nodes : List SpecNode) : List TourEvent → List (List SpecNode)
  | [] => []
  | event :: rest =>
    match event.enters? with
    | some node => (node :: nodes) :: enteredLines (node :: nodes) rest
    | none => enteredLines nodes.tail rest

/-- The lines of the nodes that events leave: what is open until they are left. -/
def leftLines (nodes : List SpecNode) : List TourEvent → List (List SpecNode)
  | [] => []
  | event :: rest =>
    match event.enters? with
    | some node => leftLines (node :: nodes) rest
    | none => nodes :: leftLines nodes.tail rest

/-- Events from entering a node to leaving it stand among others: these leave the nodes above it open, and between the
    two exactly the nodes below it are entered. -/
def Encloses (nodes : List SpecNode) (node : SpecNode) (above : List SpecNode) (events : List TourEvent) : Prop :=
  ∃ before enter inside leave after, events = before ++ enter :: (inside ++ leave :: after) ∧
    openBehind nodes before = above ∧ enter.enters? = some node ∧ leave.leaves? = some node ∧
    enteredLines (node :: above) inside = node.views.lines (node :: above)

/-- Events go through a specification depth first. -/
structure DepthFirst (spec : Spec) (events : List TourEvent) : Prop where
  nested : Nested [] events
  /-- The nodes are entered in the order of the keys, each once and below exactly the nodes above it, -/
  entered : enteredLines [] events = spec.lines
  /-- and each is left once. -/
  left : (leftLines [] events).Perm spec.lines
  /-- What is below a node comes between entering it and leaving it. -/
  between : ∀ node above, node :: above ∈ spec.lines → Encloses [] node above events

/-! ## 3. Views -/

section Views

variable (layout : String)

/-- Behind the events of views the same nodes are open as ahead of them. -/
theorem openBehind_tour (views : Views) (parent : Option String) (depth : Nat) (nodes : List SpecNode) :
    openBehind nodes (views.tour layout parent depth) = nodes := by
  induction views generalizing parent depth nodes with
  | nil => rfl
  | leaf key info rest ih => exact ih parent depth nodes
  | container key info children rest ihc ih =>
      have hc := ihc (some key) (depth + 1) (.view key ⟨info, some children⟩ :: nodes)
      have hr := ih parent depth nodes
      unfold openBehind at hc hr ⊢
      rw [Views.tour, List.foldl_cons, List.foldl_append]
      exact (congrArg (List.foldl TourEvent.shift · (_ :: rest.tour layout parent depth)) hc).trans hr

/-- **The events of views enter their nodes in order**, whatever follows. -/
theorem enteredLines_tour (views : Views) (parent : Option String) (depth : Nat) (nodes : List SpecNode)
    (more : List TourEvent) : enteredLines nodes (views.tour layout parent depth ++ more) =
      views.lines nodes ++ enteredLines nodes more := by
  induction views generalizing parent depth nodes more with
  | nil => rfl
  | leaf key info rest ih => exact congrArg (List.cons _) (ih parent depth nodes more)
  | container key info children rest ihc ih =>
      have hc := ihc (some key) (depth + 1) (.view key ⟨info, some children⟩ :: nodes)
        (.leaveView ⟨layout, key, parent, depth⟩ ⟨info, some children⟩ :: (rest.tour layout parent depth ++ more))
      have hr := ih parent depth nodes more
      have hall := hc.trans (congrArg (children.lines _ ++ ·) hr)
      rw [Views.tour, List.cons_append, List.append_assoc, Views.lines]
      exact congrArg (List.cons _) (hall.trans (List.append_assoc ..).symm)

/-- **The events of views leave each of their nodes once**, whatever follows. -/
theorem leftLines_tour (views : Views) (parent : Option String) (depth : Nat) (nodes : List SpecNode)
    (more : List TourEvent) : (leftLines nodes (views.tour layout parent depth ++ more)).Perm
      (views.lines nodes ++ leftLines nodes more) := by
  induction views generalizing parent depth nodes more with
  | nil => exact .refl _
  | leaf key info rest ih => exact (ih parent depth nodes more).cons _
  | container key info children rest ihc ih =>
      -- A container is left behind the views below it and is listed ahead of them.
      have hc := ihc (some key) (depth + 1) (.view key ⟨info, some children⟩ :: nodes)
        (.leaveView ⟨layout, key, parent, depth⟩ ⟨info, some children⟩ :: (rest.tour layout parent depth ++ more))
      have hr := ih parent depth nodes more
      have hall := hc.trans (((hr.cons _).append_left _).trans List.perm_middle)
      rw [Views.tour, List.cons_append, List.append_assoc, Views.lines]
      rw [← List.append_assoc] at hall
      exact hall

/-- Views stand right below open nodes: whatever the view, its line is read as its standing. -/
def Beneath (parent : Option String) (depth : Nat) (nodes : List SpecNode) : Prop :=
  ∀ key view, (Standing.mk layout key parent depth).Of (.view key view :: nodes)

/-- The views below a view stand one deeper, with it as their parent. -/
theorem Beneath.deeper {parent : Option String} {depth : Nat} {nodes : List SpecNode}
    (h : Beneath layout parent depth nodes) (key : String) (view : ViewNode) :
    Beneath layout (some key) (depth + 1) (.view key view :: nodes) := by
  intro k v
  obtain ⟨hlayout, -, -, hdepth⟩ := h key view
  exact ⟨hlayout, rfl, rfl, congrArg (· + 1) hdepth⟩

/-- **The events of views are nested**, if what follows is. -/
theorem nested_tour (views : Views) {parent : Option String} {depth : Nat} {nodes : List SpecNode}
    (hb : Beneath layout parent depth nodes) {more : List TourEvent} (hm : Nested nodes more) :
    Nested nodes (views.tour layout parent depth ++ more) := by
  induction views generalizing parent depth nodes more with
  | nil => exact hm
  | leaf key info rest ih =>
      exact .enter rfl (hb key ⟨info, none⟩) (.leave rfl (hb key ⟨info, none⟩) (ih hb hm))
  | container key info children rest ihc ih =>
      rw [Views.tour, List.cons_append, List.append_assoc]
      refine .enter rfl (hb key ⟨info, some children⟩) (ihc (hb.deeper layout key _) ?_)
      exact .leave rfl (hb key ⟨info, some children⟩) (ih hb hm)

variable {layout} {nodes : List SpecNode} {node : SpecNode} {above : List SpecNode}

theorem Encloses.behind {events : List TourEvent} (before : List TourEvent)
    (h : Encloses (openBehind nodes before) node above events) : Encloses nodes node above (before ++ events) := by
  obtain ⟨ahead, enter, inside, leave, after, rfl, ho, hrest⟩ := h
  refine ⟨before ++ ahead, enter, inside, leave, after, (List.append_assoc ..).symm, ?_, hrest⟩
  rw [openBehind, List.foldl_append]
  exact ho

theorem Encloses.ahead {events : List TourEvent} (h : Encloses nodes node above events) (more : List TourEvent) :
    Encloses nodes node above (events ++ more) := by
  obtain ⟨before, enter, inside, leave, after, rfl, hrest⟩ := h
  refine ⟨before, enter, inside, leave, after ++ more, ?_, hrest⟩
  rw [List.append_assoc, List.cons_append, List.append_assoc, List.cons_append]

/-- **Between entering a view and leaving it exactly the views below it are entered.** -/
theorem encloses_tour (views : Views) (parent : Option String) (depth : Nat) (h : node :: above ∈ views.lines nodes) :
    Encloses nodes node above (views.tour layout parent depth) := by
  induction views generalizing parent depth nodes with
  | nil => cases h
  | leaf key info rest ih =>
      rcases List.mem_cons.mp h with he | h
      · cases he
        exact ⟨[], _, [], _, _, rfl, rfl, rfl, rfl, rfl⟩
      · exact Encloses.behind [.enterView ⟨layout, key, parent, depth⟩ ⟨info, none⟩, .leaveView _ ⟨info, none⟩]
          (ih parent depth h)
  | container key info children rest ihc ih =>
      have hinside := enteredLines_tour layout children (some key) (depth + 1)
        (.view key ⟨info, some children⟩ :: nodes) []
      rw [List.append_nil, enteredLines, List.append_nil] at hinside
      rcases List.mem_cons.mp h with he | h
      · cases he
        exact ⟨[], _, _, _, _, rfl, rfl, rfl, rfl, hinside⟩
      rcases List.mem_append.mp h with h | h
      · exact Encloses.behind [.enterView ⟨layout, key, parent, depth⟩ ⟨info, some children⟩]
          ((ihc (some key) (depth + 1) h).ahead _)
      · have hopen := openBehind_tour layout (.container key info children .nil) parent depth nodes
        have hrest := ih parent depth h
        rw [← hopen] at hrest
        have hall := hrest.behind _
        rw [Views.tour, Views.tour, List.cons_append, List.append_assoc] at hall
        exact hall

end Views

/-! ## 4. Layouts -/

/-- Each layout is gone through depth first: what `DepthFirst` says, of one layout ahead of other events. -/
theorem enteredLines_layout (key : String) (layout : Layout) (more : List TourEvent) :
    enteredLines [] (layout.tour key ++ more) = layout.lines key ++ enteredLines [] more := by
  rw [Layout.tour, List.cons_append, List.append_assoc]
  exact congrArg (List.cons _) (enteredLines_tour key layout.views none 1 [.layout key layout] _)

theorem leftLines_layout (key : String) (layout : Layout) (more : List TourEvent) :
    (leftLines [] (layout.tour key ++ more)).Perm (layout.lines key ++ leftLines [] more) := by
  rw [Layout.tour, List.cons_append, List.append_assoc]
  exact (leftLines_tour key layout.views none 1 [.layout key layout] _).trans List.perm_middle

theorem nested_layout (key : String) (layout : Layout) {more : List TourEvent} (hm : Nested [] more) :
    Nested [] (layout.tour key ++ more) := by
  have hb : Beneath key none 1 [.layout key layout] := fun k v => ⟨⟨layout, rfl⟩, rfl, rfl, rfl⟩
  rw [Layout.tour, List.cons_append, List.append_assoc]
  exact .enter rfl rfl (nested_tour key layout.views hb (.leave rfl rfl hm))

theorem openBehind_layout (key : String) (layout : Layout) : openBehind [] (layout.tour key) = [] := by
  have hviews := openBehind_tour key layout.views none 1 [.layout key layout]
  unfold openBehind at hviews ⊢
  rw [Layout.tour, List.foldl_cons, List.foldl_append]
  exact congrArg (List.foldl TourEvent.shift · [.leaveLayout key layout]) hviews

theorem encloses_layout {key : String} {layout : Layout} {node : SpecNode} {above : List SpecNode}
    (h : node :: above ∈ layout.lines key) : Encloses [] node above (layout.tour key) := by
  have hinside := enteredLines_tour key layout.views none 1 [.layout key layout] []
  rw [List.append_nil, enteredLines, List.append_nil] at hinside
  rcases List.mem_cons.mp h with he | h
  · cases he
    exact ⟨[], _, _, _, [], rfl, rfl, rfl, rfl, hinside⟩
  · exact Encloses.behind [.enterLayout key layout]
      ((encloses_tour layout.views none 1 h).ahead [.leaveLayout key layout])

/-- **The tour goes through the specification depth first.** -/
theorem depthFirst_tour (spec : Spec) : DepthFirst spec spec.tour := by
  obtain ⟨layouts⟩ := spec
  unfold Spec.tour
  induction layouts with
  | nil => exact ⟨.nil, rfl, .refl _, fun node above h => by cases h⟩
  | cons entry rest ih =>
      obtain ⟨key, layout⟩ := entry
      rw [List.flatMap_cons]
      refine ⟨?nested, ?entered, ?left, fun node above h => ?between⟩
      case nested => exact nested_layout key layout ih.nested
      case entered =>
        rw [enteredLines_layout, ih.entered]
        rfl
      case left => exact (leftLines_layout key layout _).trans (ih.left.append_left _)
      case between =>
        rcases List.mem_append.mp h with h | h
        · exact (encloses_layout h).ahead _
        · have hrest := ih.between node above h
          rw [← openBehind_layout key layout] at hrest
          exact hrest.behind _

/-! ## 5. Visitors -/

section Walk

variable {σ ε : Type} (visitor : TourEvent → Visit σ ε Unit)

/-- The visitor takes in events one after the other, from one state to another, and stops at none of them. -/
inductive Passes : σ → List TourEvent → σ → Prop
  | nil (s : σ) : Passes s [] s
  | cons {s t s' : σ} {event : TourEvent} {rest : List TourEvent} (h : (visitor event).run s = (.ok (), t))
      (hr : Passes t rest s') : Passes s (event :: rest) s'

/-- **A walk runs the visitor over the tour.** -/
theorem Spec.walk_eq_forM (spec : Spec) : spec.walk visitor = spec.tour.forM visitor := by
  have hall : ∀ layouts : Keyed Layout, walkLayouts visitor layouts =
      (layouts.flatMap fun entry => entry.2.tour entry.1).forM visitor := by
    intro layouts
    induction layouts with
    | nil => rfl
    | cons entry rest ih => simp [walkLayouts, Layout.walk_eq_forM, ih]
  exact hall spec.layouts

theorem forM_ok_iff (events : List TourEvent) (s s' : σ) :
    (events.forM visitor).run s = (.ok (), s') ↔ Passes visitor s events s' := by
  induction events generalizing s with
  | nil =>
      constructor
      · intro h
        cases h
        exact .nil s'
      · intro h
        cases h
        rfl
  | cons event rest ih =>
      show (visitor event >>= fun _ => rest.forM visitor).run s = _ ↔ _
      rw [run_bind_eq_ok]
      constructor
      · rintro ⟨done, t, h, hr⟩
        exact .cons h ((ih t).mp hr)
      · intro hp
        cases hp with
        | cons h hr => exact ⟨(), _, h, (ih _).mpr hr⟩

/-- **The visitor stops at the first event that it refuses**: the events ahead of it were taken in, those behind it
    were not looked at. -/
theorem forM_error_iff (events : List TourEvent) (s s' : σ) (e : ε) :
    (events.forM visitor).run s = (.error e, s') ↔ ∃ seen last unseen t, events = seen ++ last :: unseen ∧
      Passes visitor s seen t ∧ (visitor last).run t = (.error e, s') := by
  induction events generalizing s with
  | nil =>
      constructor
      · intro h
        cases h
      · rintro ⟨seen, last, unseen, t, h, -⟩
        exact absurd h.symm (List.append_ne_nil_of_right_ne_nil _ (List.cons_ne_nil _ _))
  | cons event rest ih =>
      show (visitor event >>= fun _ => rest.forM visitor).run s = _ ↔ _
      rcases hv : (visitor event).run s with ⟨refused | done, t⟩
      · rw [run_bind_of_error hv]
        constructor
        · intro h
          cases h
          exact ⟨[], event, rest, s, rfl, .nil s, hv⟩
        · rintro ⟨seen, last, unseen, u, h, hp, hl⟩
          cases hp with
          | nil =>
              cases h
              exact hv.symm.trans hl
          | cons hfirst hr =>
              cases h
              cases hv.symm.trans hfirst
      · rw [run_bind_of_ok hv, ih]
        constructor
        · rintro ⟨seen, last, unseen, u, rfl, hp, hl⟩
          exact ⟨event :: seen, last, unseen, u, rfl, .cons hv hp, hl⟩
        · rintro ⟨seen, last, unseen, u, h, hp, hl⟩
          cases hp with
          | nil =>
              cases h
              cases hv.symm.trans hl
          | cons hfirst hr =>
              cases h
              cases hv.symm.trans hfirst
              exact ⟨_, last, unseen, u, rfl, hr, hl⟩

end Walk

/-- **A walk is its visitor run over one list of events that goes through the specification depth first**, up to the
    first error, whatever the visitor's state and errors are and wherever it stops. -/
theorem walk_depth_first (spec : Spec) : DepthFirst spec spec.tour ∧
    ∀ (σ ε : Type) (visitor : TourEvent → Visit σ ε Unit) (s s' : σ),
      ((spec.walk visitor).run s = (.ok (), s') ↔ Passes visitor s spec.tour s') ∧
      ∀ e, (spec.walk visitor).run s = (.error e, s') ↔ ∃ seen last unseen t, spec.tour = seen ++ last :: unseen ∧
        Passes visitor s seen t ∧ (visitor last).run t = (.error e, s') := by
  refine ⟨depthFirst_tour spec, fun σ ε visitor s s' => ?_⟩
  rw [Spec.walk_eq_forM]
  exact ⟨forM_ok_iff visitor spec.tour s s', forM_error_iff visitor spec.tour s s'⟩

end RouteScaffold
