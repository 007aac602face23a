import RouteScaffold.Proofs.Document.DistinctKeys
import RouteScaffold.Proofs.Schema.Checks

/-!
# Diagnostics are complete, ordered and well located

What validation reports of a document is what is found of its nodes (`Spec.Diagnosed`):

* each node is checked once, in document order, whatever is found of others, and gives one violation for each rule that
  it breaks, in the order of the rules;
* following the keys between the dots of a violation's location one reaches the node that breaks the rule, or the field
  that the rule is about (`Spec.Located`); only an icon put in by default has no field;
* what is found elsewhere does not depend on a layout, but for collisions of layout names (`Spec.elsewhere_cons`).
-/

namespace RouteScaffold.Spec

variable {defaults : Defaults}

/-! ## 1. What is reported -/

/-- The violations that validation reports; none if the document is accepted. -/
def reported (defaults : Defaults) (document : Document) : List Violation :=
  match validate defaults document with
  | .ok _ => []
  | .error found => found

theorem reported_eq (document : Document) : reported defaults document = violations defaults document := by
  rw [reported, validate]
  cases violations defaults document <;> rfl

/-! ## 2. Checks and the nodes they are about -/

theorem mem_checks {entries : List (String × Document)} {node : Node} :
    (∃ c ∈ checks entries, c.node = node) ↔ Stands [] entries node := by
  rw [← mem_nodesAmong_iff, ← node_checks, List.mem_map]

/-- No rule is checked twice of a node. -/
theorem Check.nodup_rules (c : Check) : c.rules.Nodup := by
  cases c with
  | layout => exact (by decide : layoutRules.Nodup)
  | view => exact (by decide : viewRules.Nodup)

theorem prefix_of_mem_withAhead {α : Type} {ahead items : List α} {front : List α} {a : α}
    (h : (front, a) ∈ withAhead ahead items) : front ++ [a] <+: ahead ++ items := by
  induction items generalizing ahead with
  | nil => cases h
  | cons first rest ih =>
      rw [List.append_cons ahead]
      rcases List.mem_cons.mp h with he | h
      · cases he
        exact List.prefix_append _ _
      · exact ih h

/-- What is checked is a layout, behind the keys ahead of it, or one of the views below a layout. -/
theorem mem_layoutChecks {entries : List (String × Document)} {keys : List String} {c : Check}
    (h : c ∈ layoutChecks keys entries) : ∃ front key value back, entries = front ++ (key, value) :: back ∧
      (c = .layout (keys ++ Keyed.keys front) ⟨[key], key, value⟩ ∨ c ∈ viewChecks [] (nodesUnder [key] value)) := by
  induction entries generalizing keys with
  | nil => cases h
  | cons entry rest ih =>
      obtain ⟨key, value⟩ := entry
      rw [layoutChecks] at h
      rcases List.mem_cons.mp h with rfl | h
      · exact ⟨[], key, value, rest, rfl, .inl (by rw [Keyed.keys, List.map_nil, List.append_nil])⟩
      rcases List.mem_append.mp h with h | h
      · exact ⟨[], key, value, rest, rfl, .inr h⟩
      · obtain ⟨front, key', value', back, rfl, hc⟩ := ih h
        refine ⟨(key, value) :: front, key', value', back, rfl, ?_⟩
        rwa [Keyed.keys, List.map_cons, List.append_cons keys]

/-- The nodes ahead of a view are those listed ahead of it below the same layout. -/
theorem view_mem_layoutChecks {entries : List (String × Document)} {keys : List String} {ahead : List Node}
    {node : Node} (h : Check.view ahead node ∈ layoutChecks keys entries) :
    ∃ key value, (key, value) ∈ entries ∧ ahead ++ [node] <+: nodesUnder [key] value := by
  obtain ⟨front, key, value, back, rfl, hc⟩ := mem_layoutChecks h
  refine ⟨key, value, List.mem_append_right _ List.mem_cons_self, ?_⟩
  obtain ⟨pair, hp, he⟩ := List.mem_map.mp (hc.resolve_left nofun)
  cases he
  exact prefix_of_mem_withAhead hp

/-- The keys ahead of a layout are those of the layouts ahead of it. -/
theorem layout_mem_layoutChecks {entries : List (String × Document)} {keys ahead : List String} {node : Node}
    (h : Check.layout ahead node ∈ layoutChecks keys entries) :
    ahead ++ [node.key] <+: keys ++ Keyed.keys entries := by
  obtain ⟨front, key, value, back, rfl, he | hc⟩ := mem_layoutChecks h
  · cases he
    rw [Keyed.keys, Keyed.keys, List.map_append, ← List.append_assoc]
    exact (List.prefix_append_right_inj _).mpr ⟨back.map Prod.fst, rfl⟩
  · obtain ⟨_, _, he⟩ := List.mem_map.mp hc
    cases he

/-! ## 3. Where violations are -/

/-- What is found of a node is there because of a rule. -/
theorem Check.mem_found {c : Check} {v : Violation} (h : v ∈ c.found defaults) :
    ∃ rule ∈ c.rules, c.cause? defaults rule = some v.cause ∧ v.location = c.node.location ++ rule.field?.toList := by
  obtain ⟨rule, hr, hv⟩ := List.mem_filterMap.mp h
  obtain ⟨cause, hc, rfl⟩ := Option.map_eq_some_iff.mp hv
  exact ⟨rule, hr, hc, rfl⟩

/-- The fields that rules are about have no dot. -/
theorem Check.dotFree_field (c : Check) : ∀ rule ∈ c.rules, ∀ field ∈ rule.field?.toList, '.' ∉ field.toList := by
  cases c with
  | layout => exact (by decide : ∀ rule ∈ layoutRules, ∀ field ∈ rule.field?.toList, '.' ∉ field.toList)
  | view => exact (by decide : ∀ rule ∈ viewRules, ∀ field ∈ rule.field?.toList, '.' ∉ field.toList)

theorem Check.follow_field (c : Check) (rule : Rule) :
    c.node.value.follow rule.field?.toList = rule.field?.elim (some c.node.value) c.value? := by
  cases rule.field? with
  | none => cases hv : c.node.value <;> rfl
  | some field =>
      show c.node.value.follow [field] = (Check.fields? c).bind fun fields => fields.get? field
      rw [Check.fields?]
      cases c.node.value with
      | map fields =>
          show (Keyed.get? fields field).bind some = Keyed.get? fields field
          exact Option.bind_fun_some _
      | _ => rfl

/-- A broken rule is about a field that is there, but for the rule about icons and the icon put in by default. -/
theorem Check.missing_field {c : Check} {rule : Rule} {cause : Cause} {field : String}
    (hc : c.cause? defaults rule = some cause) (hf : rule.field? = some field) (hv : c.value? field = none) :
    rule = .icon ∧ Check.iconCause? defaults.icon = some cause := by
  cases rule with
  | key | name | mapping => cases hf
  | noSidebar | text | truth | children =>
      cases hf
      rw [Check.cause?, hv] at hc
      cases hc
  | icon =>
      cases hf
      refine ⟨rfl, ?_⟩
      obtain ⟨icon, hicon, hcause⟩ := Option.bind_eq_some_iff.mp hc
      have hnone : ∀ fields, c.fields? = some fields → text? fields "icon" = none := fun fields h => by
        rw [text?, ← value?_eq h, hv]
      cases c with
      | layout ahead node =>
          obtain ⟨fields, h, ht⟩ := Option.bind_eq_some_iff.mp hicon
          rw [hnone fields h] at ht
          cases ht
      | view ahead node =>
          obtain ⟨fields, h, rfl⟩ := Option.map_eq_some_iff.mp hicon
          rw [hnone fields h] at hcause
          exact hcause

/-- A violation is located at the node that breaks a rule, or at the field of it that the rule is about. -/
structure Located (defaults : Defaults) (document : Document) (c : Check) (rule : Rule) (v : Violation) : Prop where
  /-- The location gives back the keys to the node and the field. -/
  keys : dotted v.location.text = c.node.location ++ rule.field?.toList
  /-- The keys to the node lead to it. -/
  node : document.follow c.node.location = some c.node.value
  /-- The location leads to the node or to the field. -/
  reached : document.follow (dotted v.location.text) = rule.field?.elim (some c.node.value) c.value?
  /-- A field that is missing is an icon put in by default. -/
  missing : ∀ field, rule.field? = some field → c.value? field = none →
    rule = .icon ∧ Check.iconCause? defaults.icon = some v.cause

theorem located_of_mem {entries : List (String × Document)} (hd : (Document.map entries).Distinct)
    (hf : (Document.map entries).DotFree) {c : Check} (hc : c ∈ checks entries) {rule : Rule} (hr : rule ∈ c.rules)
    {v : Violation} (hcause : c.cause? defaults rule = some v.cause)
    (hv : v.location = c.node.location ++ rule.field?.toList) : Located defaults (.map entries) c rule v := by
  have hs : Stands [] entries c.node := mem_checks.mp ⟨c, hc, rfl⟩
  obtain ⟨key, -, hstart⟩ := prefix_of_mem_nodesAmong c.node (mem_nodesAmong_iff.mpr hs)
  have hne : v.location ≠ [] := by
    intro he
    rw [hv, List.append_eq_nil_iff] at he
    rw [he.1] at hstart
    exact List.cons_ne_nil key [] (List.prefix_nil.mp hstart)
  have hdots : ∀ k ∈ v.location, '.' ∉ k.toList := by
    intro k hk
    rw [hv] at hk
    rcases List.mem_append.mp hk with hk | hk
    · exact (location_of_stands hf hs).2 k hk
    · exact c.dotFree_field rule hr k hk
  have hkeys : dotted v.location.text = c.node.location ++ rule.field?.toList := (dotted_text hne hdots).trans hv
  have hnode := (follow_of_stands hd hs).1
  refine ⟨hkeys, hnode, ?_, fun field hfield hmissing => c.missing_field hcause hfield hmissing⟩
  rw [hkeys, Document.follow_append, hnode]
  exact c.follow_field rule

/-! ## 4. Layouts apart -/

/-- Is this a collision of layout names? -/
def isLayoutCollision : Cause → Bool
  | .layoutTaken .. => true
  | _ => false

/-- The violations that are not located in a layout, collisions of layout names aside. -/
def elsewhere (key : String) (found : List Violation) : List Violation :=
  found.filter fun v => v.location.head? != some key && !isLayoutCollision v.cause

theorem elsewhere_append (key : String) (a b : List Violation) :
    elsewhere key (a ++ b) = elsewhere key a ++ elsewhere key b := List.filter_append a b

/-- Elsewhere is found what is found of each layout alone. -/
theorem elsewhere_layouts (key : String) (taken : Keyed String) (entries : List (String × Document)) :
    elsewhere key (layoutsViolations defaults taken entries) =
      entries.flatMap fun entry => elsewhere key (layoutsViolations defaults [] [entry]) := by
  induction entries generalizing taken with
  | nil => rfl
  | cons entry rest ih =>
      obtain ⟨name, value⟩ := entry
      have hclash : elsewhere key ((taken.get? (Name.layout name)).elim []
          fun previous => [⟨[name], .layoutTaken (Name.layout name) previous⟩]) = [] := by
        cases taken.get? (Name.layout name) with
        | none => rfl
        | some previous =>
            refine List.filter_eq_nil_iff.mpr fun v hv => ?_
            rw [List.mem_singleton.mp hv, isLayoutCollision, Bool.not_true, Bool.and_false]
            exact Bool.false_ne_true
      have halone : layoutsViolations defaults [] [(name, value)] =
          keyViolations [name] name ++ layoutViolations defaults [name] value := by
        show keyViolations [name] name ++ [] ++ layoutViolations defaults [name] value ++ [] = _
        rw [List.append_nil, List.append_nil]
      rw [List.flatMap_cons, halone, ← ih (taken.set (Name.layout name) name), layoutsViolations]
      simp only [elsewhere_append, hclash, List.append_nil]

/-- What is found of a layout alone is located in it. -/
theorem elsewhere_layout (key : String) (value : Document) :
    elsewhere key (layoutsViolations defaults [] [(key, value)]) = [] := by
  refine List.filter_eq_nil_iff.mpr fun v hv => ?_
  rw [layoutsViolations_eq knowsKeys_nil] at hv
  obtain ⟨c, hc, hfound⟩ := List.mem_flatMap.mp hv
  obtain ⟨rule, -, -, hlocation⟩ := c.mem_found hfound
  have hnode : c.node ∈ nodesAmong [] [(key, value)] := node_layoutChecks [] _ ▸ List.mem_map_of_mem hc
  obtain ⟨first, hfirst, rest, hrest⟩ := prefix_of_mem_nodesAmong c.node hnode
  have hhead : v.location.head? = some key := by
    rw [hlocation, ← hrest, List.mem_singleton.mp hfirst]
    rfl
  rw [hhead, bne_self_eq_false, Bool.false_and]
  exact Bool.false_ne_true

/-- **What is found elsewhere is the same without a layout.** -/
theorem elsewhere_cons (front back : List (String × Document)) (key : String) (value : Document) :
    elsewhere key (violations defaults (.map (front ++ (key, value) :: back))) =
      elsewhere key (violations defaults (.map (front ++ back))) := by
  rw [violations, violations, elsewhere_layouts, elsewhere_layouts, List.flatMap_append, List.flatMap_append,
    List.flatMap_cons, elsewhere_layout, List.nil_append]

/-! ## 5. Diagnosis -/

/-- Violations of a document with these layouts are those of its nodes. -/
structure Diagnosed (defaults : Defaults) (entries : List (String × Document)) (found : List Violation) : Prop where
  /-- There is one violation for each rule that is broken, node by node and in the order of the rules. -/
  complete : found = (checks entries).flatMap fun c => c.rules.filterMap (c.violation? defaults)
  /-- The nodes are checked in document order. -/
  inOrder : (checks entries).map Check.node = nodesAmong [] entries
  /-- Whatever is found of others, each node that stands in the document is checked, and nothing else is. -/
  checked : ∀ node, (∃ c ∈ checks entries, c.node = node) ↔ Stands [] entries node
  /-- No node is checked twice, and no rule of a node. -/
  once : (Document.map entries).Distinct →
    ((checks entries).map fun c => c.node.location).Nodup ∧ ∀ c ∈ checks entries, c.rules.Nodup
  /-- A layout is checked against the layouts ahead of it. -/
  layoutsAhead : ∀ ahead node, Check.layout ahead node ∈ checks entries → ahead ++ [node.key] <+: Keyed.keys entries
  /-- A view is checked against the views ahead of it below the same layout. -/
  viewsAhead : ∀ ahead node, Check.view ahead node ∈ checks entries →
    ∃ key value, (key, value) ∈ entries ∧ ahead ++ [node] <+: nodesUnder [key] value
  /-- Where no key has a dot, each violation is located at what breaks a rule. -/
  located : (Document.map entries).Distinct → (Document.map entries).DotFree → ∀ v ∈ found,
    ∃ c ∈ checks entries, ∃ rule ∈ c.rules, c.cause? defaults rule = some v.cause ∧
      Located defaults (.map entries) c rule v

theorem diagnosed_violations (entries : List (String × Document)) :
    Diagnosed defaults entries (violations defaults (.map entries)) where
  complete := violations_map entries
  inOrder := node_checks entries
  checked _ := mem_checks
  once hd := by
    refine ⟨?_, fun c _ => c.nodup_rules⟩
    have hnodup := nodup_locations.1 entries (hd entries .self)
      (fun entry he => hd.within (Document.Within.self.field he)) []
    rwa [← node_checks, List.map_map] at hnodup
  layoutsAhead _ _ := layout_mem_layoutChecks
  viewsAhead _ _ := view_mem_layoutChecks
  located hd hf v hv := by
    rw [violations_map] at hv
    obtain ⟨c, hc, hfound⟩ := List.mem_flatMap.mp hv
    obtain ⟨rule, hr, hcause, hlocation⟩ := c.mem_found hfound
    exact ⟨c, hc, rule, hr, hcause, located_of_mem hd hf hc hr hcause hlocation⟩

/-- **Diagnostics are complete, ordered and well located**: what is reported of layouts is what is found of their nodes,
    what is not a mapping of layouts has one violation at the document itself, and what is found elsewhere stays as it
    is when a layout is changed or deleted. Documents that are read hold each key once. -/
theorem validate_diagnoses (defaults : Defaults) :
    (∀ entries, Diagnosed defaults entries (reported defaults (.map entries))) ∧
    (∀ document : Document, (∀ entries, document ≠ .map entries) →
      ∃ v, reported defaults document = [v] ∧ v.cause = .documentNotMap ∧ v.location.text = "$") ∧
    (∀ (front back : List (String × Document)) (key : String) (value other : Document),
      elsewhere key (reported defaults (.map (front ++ (key, value) :: back))) =
        elsewhere key (reported defaults (.map (front ++ (key, other) :: back))) ∧
      elsewhere key (reported defaults (.map (front ++ (key, value) :: back))) =
        elsewhere key (reported defaults (.map (front ++ back)))) ∧
    ∀ (format : Format) (text : String) (document : Document), format.read text = .ok document → document.Distinct := by
  refine ⟨fun entries => ?_, fun document h => ?_, fun front back key value other => ?_,
    fun _ _ _ => Format.distinct_read⟩
  · rw [reported_eq]
    exact diagnosed_violations entries
  · refine ⟨⟨[], .documentNotMap⟩, ?_, rfl, rfl⟩
    rw [reported_eq]
    cases document with
    | map entries => exact absurd rfl (h entries)
    | _ => rfl
  · simp only [reported_eq]
    exact ⟨(elsewhere_cons front back key value).trans (elsewhere_cons front back key other).symm,
      elsewhere_cons front back key value⟩

/-- A field that is not allowed, in a view, is found, and its location leads to it. -/
theorem nested_sidebar_diagnosed :
    let entries : List (String × Document) := [("a", .map [("routes", .map [("b", .map [("sidebar", .null)])])])]
    let v : Violation := ⟨["a", "routes", "b", "sidebar"], .sidebarInView⟩
    (Document.map entries).Distinct ∧ (Document.map entries).DotFree ∧ reported .standard (.map entries) = [v] ∧
      ∃ c ∈ checks entries, ∃ rule ∈ c.rules, c.cause? .standard rule = some v.cause ∧
        Located .standard (.map entries) c rule v := by
  intro entries v
  have hreported : reported .standard (.map entries) = [v] := rfl
  have hkeys : (Document.map entries).Everywhere fun fields =>
      (Keyed.keys fields).Nodup ∧ ∀ key ∈ Keyed.keys fields, '.' ∉ key.toList := by
    refine Document.everywhere_map (by decide) (List.forall_mem_singleton.mpr ?_)
    refine Document.everywhere_map (by decide) (List.forall_mem_singleton.mpr ?_)
    refine Document.everywhere_map (by decide) (List.forall_mem_singleton.mpr ?_)
    refine Document.everywhere_map (by decide) (List.forall_mem_singleton.mpr ?_)
    exact Document.everywhere_flat trivial
  have hdistinct : (Document.map entries).Distinct := fun fields hw => (hkeys fields hw).1
  have hdots : (Document.map entries).DotFree := fun fields hw => (hkeys fields hw).2
  exact ⟨hdistinct, hdots, hreported, ((validate_diagnoses .standard).1 entries).located hdistinct hdots v
    (hreported ▸ List.mem_singleton_self v)⟩

end RouteScaffold.Spec
