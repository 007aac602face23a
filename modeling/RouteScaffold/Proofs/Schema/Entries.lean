import RouteScaffold.Spec.Validate

/-!
# The views of a document

A document is read by functions that go through the fields of a node, the value under `routes`, the entries
of that value and each entry in turn. This file says what such a reading comes down to:

* `viewsAmong`: the views of a mapping of views at all depths, in document order;
* `childrenViolations_eq`, `childrenOf_eq`, `viewsBelow_eq`: going through the fields is one lookup of
  `routes`;
* `entries_induction`: what holds of the entries of a mapping of views as soon as it holds of the entries
  behind each and of those below each holds of all entries. Every statement about views of any depth is
  proved by it.
-/

namespace RouteScaffold.Spec

/-! ## 1. Views at all depths -/

mutual

/-- The views below a node with these fields, at all depths. -/
def viewsBelow : List (String × Document) → List (String × Document)
  | [] => []
  | (name, value) :: rest => if name = childrenField then viewsWithin value else viewsBelow rest

/-- The views of a value that should map keys to views, at all depths. -/
def viewsWithin : Document → List (String × Document)
  | .map entries => viewsAmong entries
  | _ => []

/-- The views of a mapping with these entries, at all depths: each ahead of those below it. -/
def viewsAmong : List (String × Document) → List (String × Document)
  | [] => []
  | (key, value) :: rest => (key, value) :: (viewsUnder value ++ viewsAmong rest)

/-- The views below a value that should be a view, at all depths. -/
def viewsUnder : Document → List (String × Document)
  | .map fields => viewsBelow fields
  | _ => []

end

/-! ## 2. One lookup -/

variable {defaults : Defaults}

theorem childrenViolations_eq (location : Location) (taken : Taken) (fields : Document.Fields) :
    childrenViolations defaults location taken fields =
      match fields.get? childrenField with
      | none => ([], taken)
      | some value => routesViolations defaults (location ++ [childrenField]) taken value := by
  induction fields with
  | nil => rfl
  | cons field rest ih =>
      obtain ⟨name, value⟩ := field
      rw [childrenViolations, Keyed.get?_cons]
      by_cases h : name = childrenField
      · rw [if_pos h, if_pos h]
      · rw [if_neg h, if_neg h, ih]

theorem childrenOf_eq (fields : Document.Fields) :
    childrenOf defaults fields = (fields.get? childrenField).bind (routesOf defaults) := by
  induction fields with
  | nil => rfl
  | cons field rest ih =>
      obtain ⟨name, value⟩ := field
      rw [childrenOf, Keyed.get?_cons]
      by_cases h : name = childrenField
      · rw [if_pos h, if_pos h]
        rfl
      · rw [if_neg h, if_neg h, ih]

theorem viewsBelow_eq (fields : Document.Fields) :
    viewsBelow fields = (fields.get? childrenField).elim [] viewsWithin := by
  induction fields with
  | nil => rfl
  | cons field rest ih =>
      obtain ⟨name, value⟩ := field
      rw [viewsBelow, Keyed.get?_cons]
      by_cases h : name = childrenField
      · rw [if_pos h, if_pos h]
        rfl
      · rw [if_neg h, if_neg h, ih]

/-! ## 3. The induction over entries -/

/-- What is found under a key is smaller than the fields. -/
theorem sizeOf_get? {fields : Document.Fields} {key : String} {value : Document}
    (h : fields.get? key = some value) : sizeOf value < sizeOf fields := by
  induction fields with
  | nil => cases h
  | cons field rest ih =>
      obtain ⟨name, first⟩ := field
      rw [Keyed.get?_cons] at h
      by_cases hn : name = key
      · rw [if_pos hn] at h
        cases h
        simp only [List.cons.sizeOf_spec, Prod.mk.sizeOf_spec]
        omega
      · rw [if_neg hn] at h
        have := ih h
        simp only [List.cons.sizeOf_spec]
        omega

/-- A value is a mapping or none. -/
theorem map_or_not (value : Document) :
    (∃ fields, value = .map fields) ∨ ∀ fields, value ≠ .map fields :=
  (Classical.em (∃ fields, value = .map fields)).imp id fun h fields e => h ⟨fields, e⟩

section Induction

variable {P : List (String × Document) → Prop} {Q : Document → Prop} (nil : P [])
  (cons : ∀ key value rest, Q value → P rest → P ((key, value) :: rest))
  (other : ∀ value, (∀ fields, value ≠ .map fields) → Q value)
  (leaf : ∀ fields : Document.Fields, fields.get? childrenField = none → Q (.map fields))
  (container : ∀ (fields : Document.Fields) entries, fields.get? childrenField = some (.map entries) →
    P entries → Q (.map fields))
  (stray : ∀ (fields : Document.Fields) value, fields.get? childrenField = some value →
    (∀ entries, value ≠ .map entries) → Q (.map fields))

include other leaf container stray in
/-- A value that should be a view is no mapping, a mapping without `routes`, one with a mapping of views there,
    or one with something else there. -/
theorem value_of_entries (value : Document) (h : ∀ entries, sizeOf entries < sizeOf value → P entries) :
    Q value := by
  rcases map_or_not value with ⟨fields, rfl⟩ | hv
  · cases hr : Keyed.get? fields childrenField with
    | none => exact leaf fields hr
    | some inner =>
        rcases map_or_not inner with ⟨entries, rfl⟩ | hi
        · refine container fields entries hr (h entries ?_)
          have hs := sizeOf_get? hr
          simp only [Document.map.sizeOf_spec] at hs ⊢
          omega
        · exact stray fields inner hr hi
  · exact other value hv

include nil cons other leaf container stray

theorem entries_induction : ∀ entries, P entries
  | [] => nil
  | (key, value) :: rest =>
      cons key value rest
        (value_of_entries other leaf container stray value fun entries _ => entries_induction entries)
        (entries_induction rest)
termination_by entries => sizeOf entries
decreasing_by
  all_goals simp only [List.cons.sizeOf_spec, Prod.mk.sizeOf_spec]
  all_goals omega

/-- **The induction over views of any depth**, of entries side by side and of a value that should be a view. -/
theorem views_induction : (∀ entries, P entries) ∧ ∀ value, Q value :=
  ⟨entries_induction nil cons other leaf container stray, fun value =>
    value_of_entries other leaf container stray value fun entries _ =>
      entries_induction nil cons other leaf container stray entries⟩

end Induction

/-! ## 4. Readings of a value, case by case -/

theorem viewsUnder_other {value : Document} (h : ∀ fields, value ≠ .map fields) :
    viewsUnder value = [] := by
  cases value <;> first | rfl | exact absurd rfl (h _)

theorem viewsUnder_leaf {fields : Document.Fields} (h : fields.get? childrenField = none) :
    viewsUnder (.map fields) = [] := by
  rw [viewsUnder, viewsBelow_eq, h]
  rfl

theorem viewsUnder_container {fields : Document.Fields} {entries : List (String × Document)}
    (h : fields.get? childrenField = some (.map entries)) :
    viewsUnder (.map fields) = viewsAmong entries := by
  rw [viewsUnder, viewsBelow_eq, h]
  exact viewsWithin.eq_1 entries

theorem viewsUnder_stray {fields : Document.Fields} {value : Document}
    (h : fields.get? childrenField = some value) (hv : ∀ entries, value ≠ .map entries) :
    viewsUnder (.map fields) = [] := by
  rw [viewsUnder, viewsBelow_eq, h]
  cases value <;> first | rfl | exact absurd rfl (hv _)

theorem viewViolations_other {value : Document} (h : ∀ fields, value ≠ .map fields) (location : Location)
    (taken : Taken) : viewViolations defaults location taken value = ([⟨location, .viewNotMap⟩], taken) := by
  cases value <;> first | rfl | exact absurd rfl (h _)

theorem childrenViolations_leaf {fields : Document.Fields} (h : fields.get? childrenField = none)
    (location : Location) (taken : Taken) :
    childrenViolations defaults location taken fields = ([], taken) := by
  rw [childrenViolations_eq, h]

theorem childrenViolations_container {fields : Document.Fields} {entries : List (String × Document)}
    (h : fields.get? childrenField = some (.map entries)) (location : Location) (taken : Taken) :
    childrenViolations defaults location taken fields =
      viewsViolations defaults (location ++ [childrenField]) taken entries := by
  rw [childrenViolations_eq, h]
  exact routesViolations.eq_1 defaults _ taken entries

theorem childrenViolations_stray {fields : Document.Fields} {value : Document}
    (h : fields.get? childrenField = some value) (hv : ∀ entries, value ≠ .map entries)
    (location : Location) (taken : Taken) :
    childrenViolations defaults location taken fields =
      ([⟨location ++ [childrenField], .routesNotMap⟩], taken) := by
  rw [childrenViolations_eq, h]
  cases value <;> first | rfl | exact absurd rfl (hv _)

end RouteScaffold.Spec
