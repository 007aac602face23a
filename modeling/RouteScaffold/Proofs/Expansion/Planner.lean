import RouteScaffold.Expansion
import RouteScaffold.Proofs.Outcomes

/-!
# What the planner makes of views

The planner keeps the open directories on a stack and hangs each one off the next when it is left. `ofViews` gives the
directories of views by recursion on the views, without a stack; from the same stack as ahead of the views, with just
these directories hanging off its innermost one, the walk goes on behind them (`walk_views_ok`). So the plan of layouts
is given by recursion too (`ofLayouts_cons`), whatever the renderer and wherever it fails. Where it does not fail,
`PlanOfLayouts` says what is planned, so that what holds of every plan is shown by induction on it.
-/

namespace RouteScaffold

theorem Groups.append_nil (g : Groups) : g.append .nil = g := by
  induction g with
  | nil => rfl
  | group directory files nested rest _ ih => exact congrArg (Groups.group directory files nested) ih

theorem Groups.append_assoc (a b c : Groups) : (a.append b).append c = a.append (b.append c) := by
  induction a with
  | nil => rfl
  | group directory files nested rest _ ih => exact congrArg (Groups.group directory files nested) ih

namespace Expansion

theorem Branch.extend_nil (b : Branch) : b.extend .nil = b := by
  rw [extend, Groups.append_nil]

theorem Branch.extend_extend (b : Branch) (g g' : Groups) : (b.extend g).extend g' = b.extend (g.append g') := by
  rw [extend, extend, extend, Groups.append_assoc]

/-- The directories of views side by side. -/
def ofViews (r : Renderer) (layout : String) : Views → Except RenderFault Groups
  | .nil => .ok .nil
  | .leaf key info rest => do
    let files ← viewFiles r layout key info
    .ok (.group (viewDirectory layout key) files .nil (← ofViews r layout rest))
  | .container key info children rest => do
    let files ← viewFiles r layout key info
    let nested ← ofViews r layout children
    .ok (.group (viewDirectory layout key) files nested (← ofViews r layout rest))

namespace Planner

variable {r : Renderer}

/-! ## 1. One event -/

section Events

variable {layout key : String} {parent : Option String} {depth : Nat} {info : ViewInfo} {children : Option Views}
  (stack : List Branch) (finished : Option Branch)

/-- A node is entered with the files that are rendered for it. -/
theorem run_enter {x : Except RenderFault (List Artifact)} {files : List Artifact} (h : x = .ok files)
    (directory : String) (p : Planner) :
    (do let files ← liftM x; modify (·.enter ⟨directory, files, .nil⟩) : Visit Planner RenderFault Unit).run p =
      (.ok (), p.enter ⟨directory, files, .nil⟩) := by
  rw [h]
  rfl

theorem run_enter_error {x : Except RenderFault (List Artifact)} {fault : RenderFault} (h : x = .error fault)
    (directory : String) (p : Planner) :
    (do let files ← liftM x; modify (·.enter ⟨directory, files, .nil⟩) : Visit Planner RenderFault Unit).run p =
      (.error fault, p) := by
  rw [h]
  rfl

theorem visit_enterView {files : List Artifact} (h : viewFiles r layout key info = .ok files) :
    (visit r (.enterView ⟨layout, key, parent, depth⟩ ⟨info, children⟩)).run ⟨stack, finished⟩ =
      (.ok (), ⟨⟨viewDirectory layout key, files, .nil⟩ :: stack, finished⟩) := run_enter h _ _

theorem visit_enterView_error {fault : RenderFault} (h : viewFiles r layout key info = .error fault) :
    (visit r (.enterView ⟨layout, key, parent, depth⟩ ⟨info, children⟩)).run ⟨stack, finished⟩ =
      (.error fault, ⟨stack, finished⟩) := run_enter_error h _ _

theorem visit_enterLayout {layout : Layout} {files : List Artifact} (h : layoutFiles r key layout = .ok files) :
    (visit r (.enterLayout key layout)).run ⟨stack, finished⟩ =
      (.ok (), ⟨⟨layoutDirectory key, files, .nil⟩ :: stack, finished⟩) := run_enter h _ _

theorem visit_enterLayout_error {layout : Layout} {fault : RenderFault} (h : layoutFiles r key layout = .error fault) :
    (visit r (.enterLayout key layout)).run ⟨stack, finished⟩ = (.error fault, ⟨stack, finished⟩) :=
  run_enter_error h _ _

theorem visit_leaveView (b around : Branch) (standing : Standing) (view : ViewNode) :
    (visit r (.leaveView standing view)).run ⟨b :: around :: stack, finished⟩ =
      (.ok (), ⟨around.extend b.groups :: stack, finished⟩) := rfl

theorem visit_leaveLayout (layout : Layout) (b : Branch) :
    (visit r (.leaveLayout key layout)).run ⟨[b], finished⟩ = (.ok (), ⟨[], some b⟩) := rfl

end Events

/-! ## 2. Views -/

section Views

variable {layout : String} (rest : List Branch) (finished : Option Branch)

/-- **The walk through views hangs their directories off the innermost one**, behind those that hang off it already. -/
theorem walk_views_ok {views : Views} {groups : Groups} (h : ofViews r layout views = .ok groups)
    (parent : Option String) (depth : Nat) (b : Branch) :
    (views.walk (visit r) layout parent depth).run ⟨b :: rest, finished⟩ =
      (.ok (), ⟨b.extend groups :: rest, finished⟩) := by
  induction views generalizing groups parent depth b rest with
  | nil =>
      cases h
      rw [Branch.extend_nil]
      rfl
  | leaf key info views ih =>
      obtain ⟨files, hf, h⟩ := bind_eq_ok.mp h
      obtain ⟨more, hm, h⟩ := bind_eq_ok.mp h
      cases h
      rw [Views.walk, run_bind_of_ok (visit_enterView _ _ hf), run_bind_of_ok (visit_leaveView ..), ih _ hm,
        Branch.extend_extend]
      rfl
  | container key info children views ihc ih =>
      obtain ⟨files, hf, h⟩ := bind_eq_ok.mp h
      obtain ⟨nested, hn, h⟩ := bind_eq_ok.mp h
      obtain ⟨more, hm, h⟩ := bind_eq_ok.mp h
      cases h
      rw [Views.walk, run_bind_of_ok (visit_enterView _ _ hf), run_bind_of_ok (ihc (b :: rest) hn _ _ _),
        run_bind_of_ok (visit_leaveView ..), ih _ hm, Branch.extend_extend]
      rfl

/-- It stops where the first file is not rendered. -/
theorem walk_views_error {views : Views} {fault : RenderFault} (h : ofViews r layout views = .error fault)
    (parent : Option String) (depth : Nat) (b : Branch) :
    ∃ p, (views.walk (visit r) layout parent depth).run ⟨b :: rest, finished⟩ = (.error fault, p) := by
  induction views generalizing parent depth b rest with
  | nil => cases h
  | leaf key info views ih =>
      rw [Views.walk]
      rcases bind_eq_error.mp h with hf | ⟨files, hf, h⟩
      · exact ⟨_, run_bind_of_error (visit_enterView_error _ _ hf)⟩
      rw [run_bind_of_ok (visit_enterView _ _ hf), run_bind_of_ok (visit_leaveView ..)]
      rcases bind_eq_error.mp h with hm | ⟨more, -, h⟩
      · exact ih _ hm _ _ _
      · cases h
  | container key info children views ihc ih =>
      rw [Views.walk]
      rcases bind_eq_error.mp h with hf | ⟨files, hf, h⟩
      · exact ⟨_, run_bind_of_error (visit_enterView_error _ _ hf)⟩
      rw [run_bind_of_ok (visit_enterView _ _ hf)]
      rcases bind_eq_error.mp h with hn | ⟨nested, hn, h⟩
      · obtain ⟨p, hp⟩ := ihc (b :: rest) hn _ _ _
        exact ⟨p, run_bind_of_error hp⟩
      rw [run_bind_of_ok (walk_views_ok (b :: rest) finished hn _ _ _), run_bind_of_ok (visit_leaveView ..)]
      rcases bind_eq_error.mp h with hm | ⟨more, -, h⟩
      · exact ih _ hm _ _ _
      · cases h

end Views

/-- **Behind a layout the stack is empty and its directory is finished.** -/
theorem walk_layout_ok {key : String} {layout : Layout} {files : List Artifact} {nested : Groups}
    (hf : layoutFiles r key layout = .ok files) (hn : ofViews r key layout.views = .ok nested) :
    (layout.walk (visit r) key).run start = (.ok (), ⟨[], some ⟨layoutDirectory key, files, nested⟩⟩) := by
  rw [Layout.walk, start, run_bind_of_ok (visit_enterLayout _ _ hf), run_bind_of_ok (walk_views_ok _ _ hn _ _ _),
    visit_leaveLayout]
  rfl

end Planner

/-! ## 3. Layouts -/

/-- **The plan of a layout**, by recursion on its views. -/
theorem ofLayout_eq (r : Renderer) (key : String) (layout : Layout) : ofLayout r key layout = (do
    let files ← layoutFiles r key layout
    let nested ← ofViews r key layout.views
    .ok ⟨layoutDirectory key, files, nested⟩) := by
  unfold ofLayout
  cases hf : layoutFiles r key layout with
  | error fault =>
      rw [Layout.walk, Planner.start, run_bind_of_error (Planner.visit_enterLayout_error _ _ hf)]
      rfl
  | ok files =>
      cases hn : ofViews r key layout.views with
      | error fault =>
          obtain ⟨p, hp⟩ := Planner.walk_views_error [] none hn none 1 ⟨layoutDirectory key, files, .nil⟩
          rw [Layout.walk, Planner.start,
            run_bind_of_ok (Planner.visit_enterLayout _ _ hf), run_bind_of_error hp]
          rfl
      | ok nested =>
          rw [Planner.walk_layout_ok hf hn]
          rfl

/-- **The plan of layouts**, by recursion. -/
theorem ofLayouts_cons (r : Renderer) (key : String) (layout : Layout) (rest : Keyed Layout) :
    ofLayouts r ((key, layout) :: rest) = (do
      let files ← layoutFiles r key layout
      let nested ← ofViews r key layout.views
      .ok (.group (layoutDirectory key) files nested (← ofLayouts r rest))) := by
  rw [ofLayouts, ofLayout_eq]
  cases layoutFiles r key layout with
  | error fault => rfl
  | ok files =>
      cases ofViews r key layout.views with
      | error fault => rfl
      | ok nested => rfl

/-! ## 4. Plans that are made -/

/-- The directories planned for views side by side, where the files of each could be rendered. -/
inductive PlanOfViews (r : Renderer) (layout : String) : Views → Groups → Prop
  | nil : PlanOfViews r layout .nil .nil
  | leaf {key : String} {info : ViewInfo} {rest : Views} {files : List Artifact} {more : Groups}
      (hf : viewFiles r layout key info = .ok files) (hr : PlanOfViews r layout rest more) :
      PlanOfViews r layout (.leaf key info rest) (.group (viewDirectory layout key) files .nil more)
  | container {key : String} {info : ViewInfo} {children rest : Views} {files : List Artifact} {nested more : Groups}
      (hf : viewFiles r layout key info = .ok files) (hn : PlanOfViews r layout children nested)
      (hr : PlanOfViews r layout rest more) :
      PlanOfViews r layout (.container key info children rest) (.group (viewDirectory layout key) files nested more)

/-- The directories planned for layouts side by side. -/
inductive PlanOfLayouts (r : Renderer) : Keyed Layout → Groups → Prop
  | nil : PlanOfLayouts r [] .nil
  | cons {key : String} {layout : Layout} {rest : Keyed Layout} {files : List Artifact} {nested more : Groups}
      (hf : layoutFiles r key layout = .ok files) (hn : PlanOfViews r key layout.views nested)
      (hr : PlanOfLayouts r rest more) :
      PlanOfLayouts r ((key, layout) :: rest) (.group (layoutDirectory key) files nested more)

theorem planOfViews {r : Renderer} {layout : String} {views : Views} {g : Groups} (h : ofViews r layout views = .ok g) :
    PlanOfViews r layout views g := by
  induction views generalizing g with
  | nil =>
      cases h
      exact .nil
  | leaf key info rest ih =>
      obtain ⟨files, hf, h⟩ := bind_eq_ok.mp h
      obtain ⟨more, hr, h⟩ := bind_eq_ok.mp h
      cases h
      exact .leaf hf (ih hr)
  | container key info children rest ihc ih =>
      obtain ⟨files, hf, h⟩ := bind_eq_ok.mp h
      obtain ⟨nested, hn, h⟩ := bind_eq_ok.mp h
      obtain ⟨more, hr, h⟩ := bind_eq_ok.mp h
      cases h
      exact .container hf (ihc hn) (ih hr)

/-- **What is planned for layouts** has their tree, whatever the renderer. -/
theorem planOfLayouts {r : Renderer} {layouts : Keyed Layout} {g : Groups} (h : ofLayouts r layouts = .ok g) :
    PlanOfLayouts r layouts g := by
  induction layouts generalizing g with
  | nil =>
      cases h
      exact .nil
  | cons entry rest ih =>
      obtain ⟨key, layout⟩ := entry
      rw [ofLayouts_cons] at h
      obtain ⟨files, hf, h⟩ := bind_eq_ok.mp h
      obtain ⟨nested, hn, h⟩ := bind_eq_ok.mp h
      obtain ⟨more, hr, h⟩ := bind_eq_ok.mp h
      cases h
      exact .cons hf (planOfViews hn) (ih hr)

end Expansion

end RouteScaffold
