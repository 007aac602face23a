import RouteScaffold.Proofs.Routing.Icons
import RouteScaffold.Proofs.Splitting
import RouteScaffold.Proofs.Tour.DepthFirst

/-!
# Icons in order of their first use

* `IconSet.run_collector`: what a walk that takes in icons leaves is the set of the specification;
* `IconSet.answers`: calls on a set one after the other, with what they answer; what each answers depends on what has
  been inserted ahead of it alone (`getElem?_answers`), and no call moves what is there (`prefix_answers`);
* `IconSet.splitOn_importList`: the list of an import clause is had back by splitting it;
* `IconSet.icons_first_used`: all this of the icons of a specification.
-/

namespace RouteScaffold.IconSet

/-! ## 1. Walks -/

/-- The visitor that takes in the icons of the nodes it enters. It never stops. -/
def collector (event : TourEvent) : Visit IconSet Empty Unit :=
  match iconOf? event with
  | some icon => modify fun s => (s.add icon).2
  | none => pure ()

/-- **A walk that takes in icons** leaves the set of the specification. -/
theorem run_collector (spec : Spec) : (spec.walk collector).run empty = (.ok (), ofSpec spec) := by
  have hevents : ∀ (events : List TourEvent) (s : IconSet), (events.forM collector).run s =
      (.ok (), events.foldl (fun s event => (iconOf? event).elim s s.insert) s) := by
    intro events
    induction events with
    | nil => exact fun _ => rfl
    | cons event rest ih =>
        intro s
        have hfirst : (collector event).run s = (.ok (), (iconOf? event).elim s s.insert) := by
          unfold collector
          cases iconOf? event <;> rfl
        show (collector event >>= fun _ => rest.forM collector).run s = _
        rw [run_bind_of_ok hfirst, ih, List.foldl_cons]
  rw [Spec.walk_eq_forM, hevents, ofSpec]

/-! ## 2. Calls -/

/-- A call on a set of icons. -/
inductive Call where
  | insert (icon : String)
  | contains (icon : String)
  deriving DecidableEq

/-- What a call answers, and the set behind it. -/
def Call.answer (s : IconSet) : Call → Bool × IconSet
  | .insert icon => s.add icon
  | .contains icon => (s.contains icon, s)

/-- What calls answer one after the other, and the set behind them. -/
def answers (s : IconSet) : List Call → List Bool × IconSet
  | [] => ([], s)
  | call :: rest =>
    let (answer, t) := call.answer s
    let (more, u) := t.answers rest
    (answer :: more, u)

theorem answers_append (s : IconSet) (before after : List Call) : s.answers (before ++ after) =
    ((s.answers before).1 ++ ((s.answers before).2.answers after).1, ((s.answers before).2.answers after).2) := by
  induction before generalizing s with
  | nil => rfl
  | cons call rest ih => simp [answers, ih]

theorem length_answers (s : IconSet) (calls : List Call) : (s.answers calls).1.length = calls.length := by
  induction calls generalizing s with
  | nil => rfl
  | cons call rest ih => simp [answers, ih]

section Call

variable (s : IconSet) (icon : String)

theorem answer_insert : (Call.insert icon).answer s = (decide (icon ∉ s.icons), s.insert icon) := by
  refine Prod.ext ?_ rfl
  by_cases h : icon ∈ s.icons <;> simp [Call.answer, add, contains, h]

theorem answer_contains : (Call.contains icon).answer s = (decide (icon ∈ s.icons), s) := by
  simp [Call.answer, contains]

theorem mem_insert_iff (name : String) : name ∈ (s.insert icon).icons ↔ name ∈ s.icons ∨ icon = name := by
  by_cases h : icon ∈ s.icons
  · rw [insert_of_mem h]
    exact ⟨.inl, fun hn => hn.elim id fun e => e ▸ h⟩
  · simp [icons_insert_of_not_mem h, eq_comm]

end Call

/-- **A set holds what has been inserted**, beside what it held. -/
theorem mem_answers_iff (s : IconSet) (calls : List Call) (icon : String) :
    icon ∈ (s.answers calls).2.icons ↔ icon ∈ s.icons ∨ .insert icon ∈ calls := by
  induction calls generalizing s with
  | nil => simp [answers]
  | cons call rest ih =>
      rw [answers, ih]
      cases call with
      | insert name => simp [answer_insert, mem_insert_iff, or_assoc, eq_comm]
      | contains name => simp [answer_contains]

/-- **No call moves what is there.** -/
theorem prefix_answers (s : IconSet) (calls : List Call) : s.icons <+: (s.answers calls).2.icons := by
  induction calls generalizing s with
  | nil => exact List.prefix_rfl
  | cons call rest ih =>
      have hfirst : s.icons <+: (call.answer s).2.icons := by
        cases call with
        | insert name =>
            rw [answer_insert]
            by_cases h : name ∈ s.icons
            · exact ⟨[], by rw [insert_of_mem h, List.append_nil]⟩
            · exact ⟨[name], (icons_insert_of_not_mem h).symm⟩
        | contains name => exact List.prefix_rfl
      exact hfirst.trans (ih _)

/-- **Each call answers from the set that those ahead of it leave.** -/
theorem getElem?_answers (s : IconSet) (before after : List Call) (call : Call) :
    (s.answers (before ++ call :: after)).1[before.length]? = some (call.answer (s.answers before).2).1 := by
  rw [answers_append, ← length_answers s before, List.getElem?_append_right le_rfl, Nat.sub_self]
  rfl

/-! ## 3. Import clauses -/

/-- **The list of an import clause is had back** by splitting it, if icons can be imported and there are any. -/
theorem splitOn_importList {spec : Spec} (h : spec.Accepted) (hne : (ofSpec spec).icons ≠ []) :
    (ofSpec spec).importList.splitOn ", " = (ofSpec spec).icons := by
  refine Splitting.splitOn_intercalate hne fun icon hi hcomma => ?_
  have hfollow := (isIcon_of_mem h hi).1.follow ',' hcomma
  exact absurd ((Name.isIdentifierRest_iff ',').2 hfollow) (by decide)

/-! ## 4. The icons of a specification -/

/-- **The icons of a specification are held in order of their first use.** A walk takes them in as the nodes that it
    enters use them: those of a layout behind those of the layouts ahead of it, its own ahead of those of its views, and
    that of a view ahead of those below it. Each is held once, none is held that is not used, and of an accepted
    specification they are had back from the list of the import clause. Of any calls on a set an insertion says that the
    icon is new exactly if it has been neither held nor inserted, and what is held keeps its place. -/
theorem icons_first_used (spec : Spec) :
    (spec.walk collector).run empty = (.ok (), ofSpec spec) ∧ spec.tour.filterMap iconOf? = spec.icons ∧
    (ofSpec spec).icons = spec.icons.eraseDups ∧ (ofSpec spec).icons.Nodup ∧
    (∀ icon, icon ∈ (ofSpec spec).icons ↔ ∃ key layout, (key, layout) ∈ spec.layouts ∧
      (layout.icon = some icon ∨ ∃ node ∈ layout.views.nodes, node.2.icon = icon)) ∧
    (∀ defaults document, Spec.validate defaults document = .ok spec → (ofSpec spec).icons ≠ [] →
      (ofSpec spec).importList.splitOn ", " = (ofSpec spec).icons) ∧
    ∀ (s : IconSet) (before after : List Call) (icon : String),
      (s.answers (before ++ .insert icon :: after)).1[before.length]? =
        some (decide (icon ∉ s.icons ∧ .insert icon ∉ before)) ∧
      (s.answers (before ++ .contains icon :: after)).1[before.length]? =
        some (decide (icon ∈ s.icons ∨ .insert icon ∈ before)) ∧
      (s.answers before).2.icons <+: (s.answers (before ++ after)).2.icons := by
  refine ⟨run_collector spec, spec.icons_tour, icons_ofSpec spec, nodup_ofSpec spec, mem_ofSpec_iff spec,
    fun defaults document hv hne => splitOn_importList (Spec.accepted_of_validate hv) hne,
    fun s before after icon => ⟨?insert, ?contains, ?order⟩⟩
  case insert =>
    rw [getElem?_answers, answer_insert]
    simp only [mem_answers_iff, not_or]
  case contains =>
    rw [getElem?_answers, answer_contains]
    simp only [mem_answers_iff]
  case order =>
    rw [answers_append]
    exact prefix_answers _ after

/-- Five icons are in use, two of them for the second time: three are listed. -/
theorem shared_icons_listed : ∃ spec,
    Spec.validate .standard (.map [
      ("home", .map [("icon", .text "AiFillStar"), ("routes", .map [
        ("list", .map [("icon", .text "AiFillBook"),
          ("routes", .map [("item", .map [("icon", .text "AiFillStar")])])])])]),
      ("admin", .map [("routes", .map [("users", .map [("icon", .text "AiFillBook")]), ("logs", .map [])])])]) =
      .ok spec ∧
    (ofSpec spec).icons = ["AiFillStar", "AiFillBook", "AiFillHome"] ∧
    spec.icons = ["AiFillStar", "AiFillBook", "AiFillStar", "AiFillBook", "AiFillHome"] ∧
    (ofSpec spec).importList.splitOn ", " = ["AiFillStar", "AiFillBook", "AiFillHome"] := by
  obtain ⟨spec, hv, hicons, hused⟩ : ∃ spec,
      Spec.validate .standard (.map [
        ("home", .map [("icon", .text "AiFillStar"), ("routes", .map [
          ("list", .map [("icon", .text "AiFillBook"),
            ("routes", .map [("item", .map [("icon", .text "AiFillStar")])])])])]),
        ("admin", .map [("routes", .map [("users", .map [("icon", .text "AiFillBook")]), ("logs", .map [])])])]) =
        .ok spec ∧
      (ofSpec spec).icons = ["AiFillStar", "AiFillBook", "AiFillHome"] ∧
      spec.icons = ["AiFillStar", "AiFillBook", "AiFillStar", "AiFillBook", "AiFillHome"] := ⟨_, rfl, rfl, rfl⟩
  have hsplit := (icons_first_used spec).2.2.2.2.2.1 _ _ hv (by rw [hicons]; decide)
  rw [hicons] at hsplit
  exact ⟨spec, hv, hicons, hused, hsplit⟩

end RouteScaffold.IconSet
