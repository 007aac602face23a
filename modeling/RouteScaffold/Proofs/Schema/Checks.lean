import RouteScaffold.Proofs.Schema.Nodes

/-!
# What is checked of a document

Each node is held against a list of rules (`Check.rules`), which say of the node alone, and of the nodes ahead of it,
whether they are broken and how (`Check.cause?`). The nodes of a document are checked in document order (`checks`), and
what is found of a node is one violation for each rule it breaks, in the order of the rules (`Check.found`).

Main statement: the violations of a document are what is found of its nodes one after the other (`violations_map`),
though they are found by one pass that takes names along and goes no further where a value is no mapping.
-/

namespace RouteScaffold.Spec

/-! ## 1. Rules -/

/-- A rule that a node has to keep. -/
inductive Rule where
  /-- The key is an identifier fragment. -/
  | key
  /-- The name is not that of another node ahead. -/
  | name
  /-- The value is a mapping. -/
  | mapping
  /-- There is no field `sidebar`. -/
  | noSidebar
  /-- A field that is there holds a text. -/
  | text (field : String)
  /-- The icon, given or by default, can be imported. -/
  | icon
  /-- A field that is there holds a truth value. -/
  | truth (field : String)
  /-- The field `routes`, if it is there, holds a mapping. -/
  | children
  deriving DecidableEq, Repr

/-- The field that a rule is about, if it is not about the node itself. -/
def Rule.field? : Rule → Option String
  | .key | .name | .mapping => none
  | .noSidebar => some "sidebar"
  | .text field | .truth field => some field
  | .icon => some "icon"
  | .children => some childrenField

/-- The rules for layouts, in the order in which they are checked. -/
def layoutRules : List Rule :=
  [.key, .name, .mapping, .text "path", .text "title", .text "icon", .icon, .truth "sidebar", .children]

/-- The rules for views, in the order in which they are checked. -/
def viewRules : List Rule :=
  [.key, .name, .mapping, .noSidebar, .text "path", .text "title", .text "icon", .icon, .truth "sitemap", .children]

/-- A node to be checked: a layout with the keys of the layouts ahead of it, or a view with the views of the same layout
    ahead of it. -/
inductive Check where
  | layout (ahead : List String) (node : Node)
  | view (ahead : List Node) (node : Node)

namespace Check

/-- The node that is checked. -/
def node : Check → Node
  | .layout _ node => node
  | .view _ node => node

/-- The rules for the node. -/
def rules : Check → List Rule
  | .layout .. => layoutRules
  | .view .. => viewRules

/-- The fields of the node, if its value is a mapping. -/
def fields? (c : Check) : Option Document.Fields :=
  match c.node.value with
  | .map fields => some fields
  | _ => none

/-- The value of a field of the node. -/
def value? (c : Check) (field : String) : Option Document := c.fields?.bind fun fields => fields.get? field

/-- A name that a node ahead has already: for layouts the last of them, for views the first. -/
def clash? : Check → Option Cause
  | .layout ahead node =>
    (ahead.reverse.find? fun key => Name.layout key = Name.layout node.key).map (.layoutTaken (Name.layout node.key))
  | .view ahead node =>
    (ahead.find? fun other => Name.view other.key = Name.view node.key).map fun first =>
      .viewTaken (Name.view node.key) first.location

/-- What a value is that should have been a mapping. -/
def notMap : Check → Cause
  | .layout .. => .layoutNotMap
  | .view .. => .viewNotMap

/-- The icon that has to be imported. Only a view has one by default. -/
def icon? (defaults : Defaults) (c : Check) : Option String :=
  match c with
  | .layout .. => c.fields?.bind fun fields => text? fields "icon"
  | .view .. => c.fields?.map fun fields => (text? fields "icon").getD defaults.icon

/-- What is wrong with an icon. -/
def iconCause? (icon : String) : Option Cause :=
  if !Name.isIdentifier icon then some (.badIcon icon)
  else if reservedNames.contains icon then some (.reservedIcon icon)
  else none

/-- What is wrong with a field that should hold a text. -/
def textCause? : Document → Option Cause
  | .text _ => none
  | other => some (.notText other.kind)

/-- What is wrong with a field that should hold a truth value. -/
def truthCause? : Document → Option Cause
  | .bool _ => none
  | other => some (.notTruth other.kind)

/-- What is wrong with a field that should hold the nodes below a node. -/
def childrenCause? : Document → Option Cause
  | .map _ => none
  | _ => some .routesNotMap

/-- **How a node breaks a rule**, if it does. -/
def cause? (defaults : Defaults) (c : Check) : Rule → Option Cause
  | .key => if Name.isIdentifier c.node.key then none else some (.badKey c.node.key)
  | .name => c.clash?
  | .mapping => if c.fields?.isSome then none else some c.notMap
  | .noSidebar => (c.value? "sidebar").map fun _ => .sidebarInView
  | .text field => (c.value? field).bind textCause?
  | .icon => (c.icon? defaults).bind iconCause?
  | .truth field => (c.value? field).bind truthCause?
  | .children => (c.value? childrenField).bind childrenCause?

/-- A rule that is broken is a violation at the node or at the field that the rule is about. -/
def violation? (defaults : Defaults) (c : Check) (rule : Rule) : Option Violation :=
  (c.cause? defaults rule).map fun cause => ⟨c.node.location ++ rule.field?.toList, cause⟩

/-- **What is found of a node**: one violation for each rule that it breaks. -/
def found (defaults : Defaults) (c : Check) : List Violation := c.rules.filterMap (c.violation? defaults)

end Check

/-! ## 2. What is checked -/

/-- Each item of a list with the items ahead of it. -/
def withAhead {α : Type} (ahead : List α) : List α → List (List α × α)
  | [] => []
  | a :: rest => (ahead, a) :: withAhead (ahead ++ [a]) rest

/-- The views below a layout, each with those ahead of it. -/
def viewChecks (ahead nodes : List Node) : List Check :=
  (withAhead ahead nodes).map fun (ahead, node) => .view ahead node

/-- The layouts of a document behind the keys of others, each with its views. -/
def layoutChecks (ahead : List String) : List (String × Document) → List Check
  | [] => []
  | (key, value) :: rest =>
    .layout ahead ⟨[key], key, value⟩ :: (viewChecks [] (nodesUnder [key] value) ++ layoutChecks (ahead ++ [key]) rest)

/-- **All that is checked of a document with these layouts**, in document order. -/
def checks (entries : List (String × Document)) : List Check := layoutChecks [] entries

theorem withAhead_append {α : Type} (ahead a b : List α) :
    withAhead ahead (a ++ b) = withAhead ahead a ++ withAhead (ahead ++ a) b := by
  induction a generalizing ahead with
  | nil => rw [List.append_nil]; rfl
  | cons first rest ih => rw [List.cons_append, withAhead, withAhead, ih, List.append_assoc]; rfl

theorem viewChecks_append (ahead a b : List Node) :
    viewChecks ahead (a ++ b) = viewChecks ahead a ++ viewChecks (ahead ++ a) b := by
  rw [viewChecks, withAhead_append, List.map_append]
  rfl

theorem node_viewChecks (ahead nodes : List Node) : (viewChecks ahead nodes).map Check.node = nodes := by
  induction nodes generalizing ahead with
  | nil => rfl
  | cons node rest ih => exact congrArg (node :: ·) (ih (ahead ++ [node]))

theorem node_layoutChecks (ahead : List String) (entries : List (String × Document)) :
    (layoutChecks ahead entries).map Check.node = nodesAmong [] entries := by
  induction entries generalizing ahead with
  | nil => rfl
  | cons entry rest ih =>
      obtain ⟨key, value⟩ := entry
      rw [layoutChecks, List.map_cons, List.map_append, node_viewChecks, ih, nodesAmong]
      rfl

/-- **Every node is checked**, once and in document order. -/
theorem node_checks (entries : List (String × Document)) : (checks entries).map Check.node = nodesAmong [] entries :=
  node_layoutChecks [] entries

/-! ## 3. What is found of a node -/

section Found

variable {defaults : Defaults}

theorem filterMap_cons_toList {α β : Type} (f : α → Option β) (a : α) (rest : List α) :
    (a :: rest).filterMap f = (f a).toList ++ rest.filterMap f := by
  rw [List.filterMap_cons]
  cases f a <;> rfl

/-- The checks of a node's key and name, and of what its value is. -/
theorem toList_key (c : Check) :
    (c.violation? defaults .key).toList = keyViolations c.node.location c.node.key := by
  unfold Check.violation? Check.cause? keyViolations
  rw [Rule.field?, Option.toList_none, List.append_nil]
  cases Name.isIdentifier c.node.key <;> rfl

theorem value?_eq {c : Check} {fields : Document.Fields} (h : c.fields? = some fields) (field : String) :
    c.value? field = fields.get? field := by
  rw [Check.value?, h]
  rfl

theorem toList_text {c : Check} {fields : Document.Fields} (h : c.fields? = some fields) (field : String) :
    (c.violation? defaults (.text field)).toList = textViolations fields c.node.location field := by
  rw [Check.violation?, Check.cause?, value?_eq h, textViolations]
  cases Keyed.get? fields field with
  | none => rfl
  | some value => cases value <;> rfl

theorem toList_truth {c : Check} {fields : Document.Fields} (h : c.fields? = some fields) (field : String) :
    (c.violation? defaults (.truth field)).toList = truthViolations fields c.node.location field := by
  rw [Check.violation?, Check.cause?, value?_eq h, truthViolations]
  cases Keyed.get? fields field with
  | none => rfl
  | some value => cases value <;> rfl

theorem toList_icon {c : Check} (icon : String) (h : c.icon? defaults = some icon) :
    (c.violation? defaults .icon).toList = iconViolations c.node.location icon := by
  rw [Check.violation?, Check.cause?, h, Option.bind_some, Check.iconCause?, iconViolations]
  split
  · rfl
  · split <;> rfl

theorem toList_noSidebar {c : Check} {fields : Document.Fields} (h : c.fields? = some fields) :
    (c.violation? defaults .noSidebar).toList =
      if (fields.get? "sidebar").isSome then [⟨c.node.location ++ ["sidebar"], .sidebarInView⟩] else [] := by
  rw [Check.violation?, Check.cause?, value?_eq h]
  cases Keyed.get? fields "sidebar" <;> rfl

/-- The field `routes` of a node, if it holds no mapping. -/
def strayViolations (location : Location) (fields : Document.Fields) : List Violation :=
  ((fields.get? childrenField).bind Check.childrenCause?).toList.map fun cause => ⟨location ++ [childrenField], cause⟩

theorem toList_children {c : Check} {fields : Document.Fields} (h : c.fields? = some fields) :
    (c.violation? defaults .children).toList = strayViolations c.node.location fields := by
  rw [Check.violation?, Check.cause?, value?_eq h, strayViolations]
  cases (Keyed.get? fields childrenField).bind Check.childrenCause? <;> rfl

/-- What is found of a view with fields. -/
theorem found_viewMap (ahead : List Node) (location : Location) (key : String) (fields : Document.Fields) :
    (Check.view ahead ⟨location, key, .map fields⟩).found defaults =
      keyViolations location key ++
        ((Check.view ahead ⟨location, key, .map fields⟩).violation? defaults .name).toList ++
        (viewAttributeViolations defaults location fields ++ strayViolations location fields) := by
  have hf : (Check.view ahead ⟨location, key, .map fields⟩).fields? = some fields := rfl
  rw [Check.found, Check.rules, viewRules]
  simp only [filterMap_cons_toList, List.filterMap_nil, List.append_nil, toList_key, toList_text hf, toList_truth hf,
    toList_noSidebar hf, toList_children hf]
  rw [toList_icon ((text? fields "icon").getD defaults.icon) rfl, viewAttributeViolations]
  simp only [List.append_assoc]
  rfl

/-- What is found of a layout with fields. -/
theorem found_layoutMap (ahead : List String) (location : Location) (key : String) (fields : Document.Fields) :
    (Check.layout ahead ⟨location, key, .map fields⟩).found defaults =
      keyViolations location key ++
        ((Check.layout ahead ⟨location, key, .map fields⟩).violation? defaults .name).toList ++
        (layoutAttributeViolations location fields ++ strayViolations location fields) := by
  have hf : (Check.layout ahead ⟨location, key, .map fields⟩).fields? = some fields := rfl
  have hicon : ((Check.layout ahead ⟨location, key, .map fields⟩).violation? defaults .icon).toList =
      ((text? fields "icon").map (iconViolations location)).getD [] := by
    cases ht : text? fields "icon" with
    | none =>
        rw [Check.violation?, Check.cause?, Check.icon?, hf, Option.bind_some, ht]
        rfl
    | some icon => exact toList_icon icon ht
  rw [Check.found, Check.rules, layoutRules]
  simp only [filterMap_cons_toList, List.filterMap_nil, List.append_nil, toList_key, toList_text hf, toList_truth hf,
    toList_children hf, hicon]
  rw [layoutAttributeViolations]
  simp only [List.append_assoc]
  rfl

/-- Of a node that is no mapping the fields are not checked. -/
theorem violation?_field {c : Check} (h : c.fields? = none) {rule : Rule} (hr : rule.field?.isSome) :
    c.violation? defaults rule = none := by
  have hv : ∀ field, c.value? field = none := fun field => by
    rw [Check.value?, h]
    rfl
  have hi : c.icon? defaults = none := by
    cases c <;> rw [Check.icon?, h] <;> rfl
  rw [Check.violation?, Option.map_eq_none_iff]
  cases rule with
  | key | name | mapping => cases hr
  | noSidebar | text | truth | children =>
      rw [Check.cause?, hv]
      rfl
  | icon =>
      rw [Check.cause?, hi]
      rfl

/-- What is found of a node that is no mapping. -/
theorem found_other {c : Check} (h : c.fields? = none) : c.found defaults =
    keyViolations c.node.location c.node.key ++ (c.violation? defaults .name).toList ++
      [⟨c.node.location, c.notMap⟩] := by
  have hmap : (c.violation? defaults .mapping).toList = [⟨c.node.location, c.notMap⟩] := by
    rw [Check.violation?, Check.cause?, h, Rule.field?, Option.toList_none, List.append_nil]
    rfl
  have hrest : ∀ {rules : List Rule}, (∀ rule ∈ rules, rule.field?.isSome) →
      rules.filterMap (c.violation? defaults) = [] := fun hr =>
    List.filterMap_eq_nil_iff.mpr fun rule hm => violation?_field h (hr rule hm)
  have hrules : ∃ fieldRules, c.rules = .key :: .name :: .mapping :: fieldRules ∧
      ∀ rule ∈ fieldRules, rule.field?.isSome := by
    cases c with
    | layout => exact ⟨_, rfl, by decide⟩
    | view => exact ⟨_, rfl, by decide⟩
  obtain ⟨fieldRules, hr, hfields⟩ := hrules
  rw [Check.found, hr, filterMap_cons_toList, filterMap_cons_toList, filterMap_cons_toList, hrest hfields, toList_key,
    hmap, List.append_nil, List.append_assoc]

/-- The violations of what a view holds, but for the views below it. -/
def viewOwn (defaults : Defaults) (location : Location) : Document → List Violation
  | .map fields => viewAttributeViolations defaults location fields ++ strayViolations location fields
  | _ => [⟨location, .viewNotMap⟩]

/-- The violations of what a layout holds, but for the views below it. -/
def layoutOwn (location : Location) : Document → List Violation
  | .map fields => layoutAttributeViolations location fields ++ strayViolations location fields
  | _ => [⟨location, .layoutNotMap⟩]

/-- **What is found of a view**: of its key, of its name and of what it holds. -/
theorem found_view (ahead : List Node) (location : Location) (key : String) (value : Document) :
    (Check.view ahead ⟨location, key, value⟩).found defaults =
      keyViolations location key ++ ((Check.view ahead ⟨location, key, value⟩).violation? defaults .name).toList ++
        viewOwn defaults location value := by
  cases value with
  | map fields => exact found_viewMap ahead location key fields
  | _ => exact found_other rfl

/-- **What is found of a layout**: of its key, of its name and of what it holds. -/
theorem found_layout (ahead : List String) (location : Location) (key : String) (value : Document) :
    (Check.layout ahead ⟨location, key, value⟩).found defaults =
      keyViolations location key ++ ((Check.layout ahead ⟨location, key, value⟩).violation? defaults .name).toList ++
        layoutOwn location value := by
  cases value with
  | map fields => exact found_layoutMap ahead location key fields
  | _ => exact found_other rfl

end Found

/-! ## 4. Names ahead -/

/-- The names taken are those of views, each where it was first. -/
def Knows (taken : Taken) (views : List Node) : Prop :=
  ∀ name, taken.get? name = (views.find? fun node => Name.view node.key = name).map Node.location

theorem knows_nil : Knows [] [] := fun _ => rfl

/-- What taking a name finds is what is found of its view. -/
theorem takeView_fst (defaults : Defaults) {taken : Taken} {views : List Node} (h : Knows taken views)
    (location : Location) (key : String) (value : Document) : (takeView taken location key).1 =
      ((Check.view views ⟨location, key, value⟩).violation? defaults .name).toList := by
  rw [takeView, h, Check.violation?, Check.cause?, Check.clash?, Rule.field?, Option.toList_none, List.append_nil]
  cases views.find? fun node => Name.view node.key = Name.view key <;> rfl

/-- A name that is taken stays where it was first. -/
theorem get?_takeView (taken : Taken) (location : Location) (key name : String) :
    Keyed.get? (takeView taken location key).2 name =
      (taken.get? name).or (if Name.view key = name then some location else none) := by
  rw [takeView]
  cases ht : taken.get? (Name.view key) with
  | some previous =>
      by_cases hname : Name.view key = name
      · rw [← hname]
        exact ht.trans (by rw [ht]; rfl)
      · rw [if_neg hname, Option.or_none]
  | none =>
      show Keyed.get? ((Name.view key, location) :: taken) name = _
      rw [Keyed.get?_cons]
      by_cases hname : Name.view key = name
      · rw [if_pos hname, if_pos hname, ← hname, ht]
        rfl
      · rw [if_neg hname, if_neg hname, Option.or_none]

theorem knows_takeView {taken : Taken} {views : List Node} (h : Knows taken views) (location : Location) (key : String)
    (value : Document) : Knows (takeView taken location key).2 (views ++ [⟨location, key, value⟩]) := by
  intro name
  rw [get?_takeView, h, List.find?_append, Option.map_or, List.find?_singleton]
  by_cases hname : Name.view key = name
  · rw [if_pos hname, if_pos (by simpa using hname)]
    rfl
  · rw [if_neg hname, if_neg (by simpa using hname)]
    rfl

/-- The names taken are those of layouts, each with the key that was last. -/
def KnowsKeys (taken : Keyed String) (keys : List String) : Prop :=
  ∀ name, taken.get? name = keys.reverse.find? fun key => Name.layout key = name

theorem knowsKeys_nil : KnowsKeys [] [] := fun _ => rfl

theorem knowsKeys_set {taken : Keyed String} {keys : List String} (h : KnowsKeys taken keys) (key : String) :
    KnowsKeys (taken.set (Name.layout key) key) (keys ++ [key]) := by
  intro name
  rw [Keyed.get?_set, List.reverse_append, List.reverse_singleton, List.singleton_append]
  by_cases hname : Name.layout key = name
  · rw [if_pos hname, List.find?_cons_of_pos (by simpa using hname)]
  · rw [if_neg hname, List.find?_cons_of_neg (by simpa using hname), h]

/-! ## 5. The pass -/

section Pass

variable {defaults : Defaults}

/-- What is found of views behind others. -/
def foundViews (defaults : Defaults) (ahead nodes : List Node) : List Violation :=
  (viewChecks ahead nodes).flatMap (Check.found defaults)

theorem foundViews_append (ahead a b : List Node) :
    foundViews defaults ahead (a ++ b) = foundViews defaults ahead a ++ foundViews defaults (ahead ++ a) b := by
  rw [foundViews, viewChecks_append, List.flatMap_append]
  rfl

theorem foundViews_cons (ahead : List Node) (node : Node) (rest : List Node) :
    foundViews defaults ahead (node :: rest) =
      (Check.view ahead node).found defaults ++ foundViews defaults (ahead ++ [node]) rest := rfl

/-- **A pass over views finds what the checks find**, and after it the names of all of them are taken. -/
theorem viewsViolations_eq :
    (∀ (entries : List (String × Document)) (location : Location) (taken : Taken) (ahead : List Node),
      Knows taken ahead →
        (viewsViolations defaults location taken entries).1 = foundViews defaults ahead (nodesAmong location entries) ∧
        Knows (viewsViolations defaults location taken entries).2 (ahead ++ nodesAmong location entries)) ∧
    ∀ (value : Document) (location : Location) (taken : Taken) (ahead : List Node), Knows taken ahead →
      (viewViolations defaults location taken value).1 =
        viewOwn defaults location value ++ foundViews defaults ahead (nodesUnder location value) ∧
      Knows (viewViolations defaults location taken value).2 (ahead ++ nodesUnder location value) := by
  refine views_induction ?nil ?cons ?other ?leaf ?container ?stray
  case nil =>
    intro location taken ahead h
    exact ⟨rfl, (List.append_nil ahead).symm ▸ h⟩
  case cons =>
    intro key value rest hvalue hrest location taken ahead h
    have hclash := takeView_fst defaults h (location ++ [key]) key value
    have htaken := knows_takeView h (location ++ [key]) key value
    obtain ⟨hinner, hunder⟩ := hvalue (location ++ [key]) _ _ htaken
    obtain ⟨hlater, hall⟩ := hrest location _ _ hunder
    rw [viewsViolations, nodesAmong, foundViews_cons, foundViews_append, found_view]
    refine ⟨?_, ?_⟩
    · show keyViolations (location ++ [key]) key ++ (takeView taken (location ++ [key]) key).1 ++
        (viewViolations defaults (location ++ [key]) (takeView taken (location ++ [key]) key).2 value).1 ++
          (viewsViolations defaults location (viewViolations defaults (location ++ [key])
            (takeView taken (location ++ [key]) key).2 value).2 rest).1 = _
      rw [hclash, hinner, hlater]
      simp only [List.append_assoc]
    · rw [List.append_assoc, List.append_assoc] at hall
      exact hall
  case other =>
    intro value hv location taken ahead h
    rw [viewViolations_other hv, nodesUnder_other hv, List.append_nil]
    refine ⟨?_, h⟩
    cases value with
    | map fields => exact absurd rfl (hv fields)
    | _ => rfl
  case leaf =>
    intro fields hr location taken ahead h
    rw [viewViolations, nodesUnder_leaf hr, childrenViolations_leaf hr, List.append_nil]
    refine ⟨?_, h⟩
    rw [viewOwn, strayViolations, hr]
    exact (List.append_nil _).symm
  case container =>
    intro fields entries hr ih location taken ahead h
    obtain ⟨hfound, hknows⟩ := ih (location ++ [childrenField]) taken ahead h
    rw [viewViolations, nodesUnder_container hr, childrenViolations_container hr]
    refine ⟨?_, hknows⟩
    rw [viewOwn, strayViolations, hr]
    show viewAttributeViolations defaults location fields ++ _ =
      viewAttributeViolations defaults location fields ++ [] ++ _
    rw [hfound, List.append_nil]
  case stray =>
    intro fields value hr hv location taken ahead h
    rw [viewViolations, nodesUnder_stray hr hv, childrenViolations_stray hr hv, List.append_nil]
    refine ⟨?_, h⟩
    rw [viewOwn, strayViolations, hr]
    cases value with
    | map entries => exact absurd rfl (hv entries)
    | _ => exact (List.append_nil _).symm

/-- A layout's violations are those of what it holds and those of the views below it. -/
theorem layoutViolations_eq (location : Location) (value : Document) :
    layoutViolations defaults location value =
      layoutOwn location value ++ foundViews defaults [] (nodesUnder location value) := by
  rcases map_or_not value with ⟨fields, rfl⟩ | hv
  · rw [layoutViolations, layoutOwn]
    cases hr : Keyed.get? fields childrenField with
    | none =>
        rw [childrenViolations_leaf hr, nodesUnder_leaf hr, strayViolations, hr]
        exact (List.append_nil _).symm
    | some inner =>
        rcases map_or_not inner with ⟨entries, rfl⟩ | hi
        · rw [childrenViolations_container hr, nodesUnder_container hr, strayViolations, hr,
            (viewsViolations_eq.1 entries _ [] [] knows_nil).1]
          show layoutAttributeViolations location fields ++ _ =
            layoutAttributeViolations location fields ++ [] ++ _
          rw [List.append_nil]
        · rw [childrenViolations_stray hr hi, nodesUnder_stray hr hi, strayViolations, hr]
          cases inner with
          | map entries => exact absurd rfl (hi entries)
          | _ => exact (List.append_nil _).symm
  · rw [nodesUnder_other hv]
    cases value with
    | map fields => exact absurd rfl (hv fields)
    | _ => rfl

/-- The pass over layouts finds what the checks find. -/
theorem layoutsViolations_eq {entries : List (String × Document)} {taken : Keyed String} {ahead : List String}
    (h : KnowsKeys taken ahead) :
    layoutsViolations defaults taken entries = (layoutChecks ahead entries).flatMap (Check.found defaults) := by
  induction entries generalizing taken ahead with
  | nil => rfl
  | cons entry rest ih =>
      obtain ⟨key, value⟩ := entry
      have hclash : (taken.get? (Name.layout key)).elim []
          (fun previous => [(⟨[key], .layoutTaken (Name.layout key) previous⟩ : Violation)]) =
            ((Check.layout ahead ⟨[key], key, value⟩).violation? defaults .name).toList := by
        rw [h, Check.violation?, Check.cause?, Check.clash?, Rule.field?, Option.toList_none, List.append_nil]
        cases ahead.reverse.find? fun other => Name.layout other = Name.layout key <;> rfl
      rw [layoutsViolations, layoutChecks, List.flatMap_cons, List.flatMap_append, found_layout, layoutViolations_eq,
        ih (knowsKeys_set h key), hclash]
      simp only [List.append_assoc]
      rfl

/-- **The violations of a document are what is found of its nodes**, one after the other. -/
theorem violations_map (entries : List (String × Document)) :
    violations defaults (.map entries) = (checks entries).flatMap (Check.found defaults) :=
  layoutsViolations_eq knowsKeys_nil

end Pass

end RouteScaffold.Spec
