import RouteScaffold.Proofs.Names
import RouteScaffold.Proofs.Schema.Entries

/-!
# Admissible documents

What a document has to be to describe a specification, said without going through it: `Admissible`. The
violations are found by one pass that takes the names of views along as it goes; `violations_eq_nil_iff`
says that it finds none exactly in admissible documents.

The pass carries the names it has seen (`Taken`). The bridge to "no two views of a layout have the same
name" is `Fresh seen names`, which says of a whole list that its names are pairwise distinct and that none of them was
seen before; it splits along `++` (`fresh_append`) as the pass does.
-/

namespace RouteScaffold

/-- The names are pairwise distinct and none of them was seen. -/
def Fresh (seen names : List String) : Prop := names.Nodup ∧ ∀ n ∈ names, n ∉ seen

theorem fresh_nil (seen : List String) : Fresh seen [] := ⟨List.nodup_nil, by simp⟩

theorem fresh_singleton (seen : List String) (n : String) : Fresh seen [n] ↔ n ∉ seen := by
  simp [Fresh]

/-- A list is fresh part by part, the second part after the first was seen. -/
theorem fresh_append {seen seen' a : List String} (b : List String)
    (h : ∀ n, n ∈ seen' ↔ n ∈ a ∨ n ∈ seen) : Fresh seen (a ++ b) ↔ Fresh seen a ∧ Fresh seen' b := by
  unfold Fresh
  rw [List.nodup_append]
  constructor
  · rintro ⟨⟨ha, hb, hab⟩, hs⟩
    refine ⟨⟨ha, fun n hn => hs n (List.mem_append_left b hn)⟩, hb, fun n hn hn' => ?_⟩
    rcases (h n).mp hn' with h1 | h1
    · exact hab n h1 n hn rfl
    · exact hs n (List.mem_append_right a hn) h1
  · rintro ⟨⟨ha, hsa⟩, hb, hsb⟩
    refine ⟨⟨ha, hb, fun n h1 m h2 e => hsb m h2 ((h m).mpr (.inl (e ▸ h1)))⟩, fun n hn => ?_⟩
    rcases List.mem_append.mp hn with h1 | h1
    · exact hsa n h1
    · exact fun h2 => hsb n h1 ((h n).mpr (.inr h2))

end RouteScaffold

namespace RouteScaffold.Spec

/-! ## 1. What a node has to be -/

/-- A field that is there holds a text. -/
def HoldsText (fields : Document.Fields) (name : String) : Prop :=
  ∀ value, fields.get? name = some value → ∃ s, value = .text s

/-- A field that is there holds a truth value. -/
def HoldsTruth (fields : Document.Fields) (name : String) : Prop :=
  ∀ value, fields.get? name = some value → ∃ b, value = .bool b

/-- A field that is there holds a mapping. -/
def HoldsMap (fields : Document.Fields) (name : String) : Prop :=
  ∀ value, fields.get? name = some value → ∃ entries, value = .map entries

/-- An icon is an identifier that the routing module does not bind itself. -/
def IsIcon (icon : String) : Prop := Name.Fragment icon ∧ icon ∉ reservedNames

/-- What the fields of a view have to be. -/
structure AdmissibleView (defaults : Defaults) (fields : Document.Fields) : Prop where
  sidebar : fields.get? "sidebar" = none
  path : HoldsText fields "path"
  title : HoldsText fields "title"
  icon : HoldsText fields "icon"
  givenIcon : ∀ icon, fields.get? "icon" = some (.text icon) → IsIcon icon
  defaultIcon : fields.get? "icon" = none → IsIcon defaults.icon
  sitemap : HoldsTruth fields "sitemap"
  routes : HoldsMap fields childrenField

/-- What a view and its key have to be. -/
def AdmissibleEntry (defaults : Defaults) (entry : String × Document) : Prop :=
  Name.Fragment entry.1 ∧ ∃ fields, entry.2 = .map fields ∧ AdmissibleView defaults fields

/-- The names of the views of a mapping of views, at all depths. -/
def viewNames (entries : List (String × Document)) : List String :=
  entries.map fun entry => Name.view entry.1

/-- What the fields of a layout have to be: its own, and the views below it, whose names differ. -/
structure AdmissibleLayout (defaults : Defaults) (fields : Document.Fields) : Prop where
  path : HoldsText fields "path"
  title : HoldsText fields "title"
  icon : HoldsText fields "icon"
  givenIcon : ∀ icon, fields.get? "icon" = some (.text icon) → IsIcon icon
  sidebar : HoldsTruth fields "sidebar"
  routes : HoldsMap fields childrenField
  views : ∀ entry ∈ viewsBelow fields, AdmissibleEntry defaults entry
  names : (viewNames (viewsBelow fields)).Nodup

/-- **What a document has to be**: a mapping of layouts whose names differ. -/
def Admissible (defaults : Defaults) (document : Document) : Prop :=
  ∃ entries, document = .map entries ∧ (entries.map fun entry => Name.layout entry.1).Nodup ∧
    ∀ entry ∈ entries, Name.Fragment entry.1 ∧
      ∃ fields, entry.2 = .map fields ∧ AdmissibleLayout defaults fields

/-! ## 2. Single checks -/

variable {defaults : Defaults}

theorem textViolations_eq_nil_iff (fields : Document.Fields) (location : Location) (name : String) :
    textViolations fields location name = [] ↔ HoldsText fields name := by
  unfold textViolations HoldsText
  cases fields.get? name with
  | none => simp
  | some value => cases value <;> simp

theorem truthViolations_eq_nil_iff (fields : Document.Fields) (location : Location) (name : String) :
    truthViolations fields location name = [] ↔ HoldsTruth fields name := by
  unfold truthViolations HoldsTruth
  cases fields.get? name with
  | none => simp
  | some value => cases value <;> simp

theorem keyViolations_eq_nil_iff (location : Location) (key : String) :
    keyViolations location key = [] ↔ Name.Fragment key := by
  rw [← Name.isIdentifier_iff]
  unfold keyViolations
  cases Name.isIdentifier key <;> simp

theorem iconViolations_eq_nil_iff (location : Location) (icon : String) :
    iconViolations location icon = [] ↔ IsIcon icon := by
  unfold iconViolations IsIcon
  rw [← Name.isIdentifier_iff]
  cases Name.isIdentifier icon with
  | false => simp
  | true => by_cases h : icon ∈ reservedNames <;> simp [h]

/-- The violations of a view's own attributes: none exactly if each attribute is as it has to be. -/
theorem viewAttributeViolations_eq_nil_iff (location : Location) (fields : Document.Fields)
    (routes : HoldsMap fields childrenField) :
    viewAttributeViolations defaults location fields = [] ↔ AdmissibleView defaults fields := by
  have hsidebar : (if (fields.get? "sidebar").isSome then
      [(⟨location ++ ["sidebar"], .sidebarInView⟩ : Violation)] else []) = [] ↔
      fields.get? "sidebar" = none := by
    cases fields.get? "sidebar" <;> simp
  unfold viewAttributeViolations
  simp only [List.append_eq_nil_iff, hsidebar, textViolations_eq_nil_iff, truthViolations_eq_nil_iff,
    iconViolations_eq_nil_iff]
  constructor
  · rintro ⟨⟨⟨⟨⟨h1, h2⟩, h3⟩, h4⟩, h5⟩, h6⟩
    refine ⟨h1, h2, h3, h4, fun icon hi => ?_, fun hi => ?_, h6, routes⟩
    · simpa [text?, hi] using h5
    · simpa [text?, hi] using h5
  · intro h
    refine ⟨⟨⟨⟨⟨h.sidebar, h.path⟩, h.title⟩, h.icon⟩, ?_⟩, h.sitemap⟩
    cases hi : fields.get? "icon" with
    | none => simpa [text?, hi] using h.defaultIcon hi
    | some value =>
        obtain ⟨icon, rfl⟩ := h.icon value hi
        simpa [text?, hi] using h.givenIcon icon hi

/-! ## 3. Names taken along the way -/

theorem takeView_eq_nil_iff (taken : Taken) (location : Location) (key : String) :
    (takeView taken location key).1 = [] ↔ Name.view key ∉ taken.keys := by
  rw [← Keyed.get?_eq_none_iff]
  unfold takeView
  cases Keyed.get? taken (Name.view key) <;> simp

theorem mem_takeView (taken : Taken) (location : Location) (key n : String) :
    n ∈ (takeView taken location key).2.keys ↔ n ∈ [Name.view key] ∨ n ∈ taken.keys := by
  unfold takeView
  cases h : Keyed.get? taken (Name.view key) with
  | none => simp [Keyed.keys]
  | some previous =>
      have hk : Name.view key ∈ taken.keys := by
        refine Classical.byContradiction fun hn => ?_
        rw [(Keyed.get?_eq_none_iff taken (Name.view key)).mpr hn] at h
        cases h
      refine ⟨.inr, fun hn => hn.elim (fun he => ?_) id⟩
      rw [List.mem_singleton.mp he]
      exact hk

theorem viewNames_cons (key : String) (value : Document) (rest : List (String × Document)) :
    viewNames (viewsAmong ((key, value) :: rest)) =
      [Name.view key] ++ (viewNames (viewsUnder value) ++ viewNames (viewsAmong rest)) := by
  simp [viewsAmong, viewNames]

/-- **After a pass over views the names taken are those of before and those of the views**, whatever is wrong
    with the views. -/
theorem mem_taken :
    (∀ (entries : List (String × Document)) (location : Location) (taken : Taken) (n : String),
      n ∈ (viewsViolations defaults location taken entries).2.keys ↔
        n ∈ viewNames (viewsAmong entries) ∨ n ∈ taken.keys) ∧
    ∀ (value : Document) (location : Location) (taken : Taken) (n : String),
      n ∈ (viewViolations defaults location taken value).2.keys ↔
        n ∈ viewNames (viewsUnder value) ∨ n ∈ taken.keys := by
  refine views_induction ?nil ?cons ?other ?leaf ?container ?stray
  case nil =>
    intro location taken n
    simp [viewsViolations, viewsAmong, viewNames]
  case cons =>
    intro key value rest hvalue hrest location taken n
    rw [viewsViolations, viewNames_cons, List.mem_append, List.mem_append]
    show n ∈ (viewsViolations defaults location _ rest).2.keys ↔ _
    rw [hrest, hvalue, mem_takeView]
    constructor
    · rintro (h | h | h | h)
      · exact .inl (.inr (.inr h))
      · exact .inl (.inr (.inl h))
      · exact .inl (.inl h)
      · exact .inr h
    · rintro ((h | h | h) | h)
      · exact .inr (.inr (.inl h))
      · exact .inr (.inl h)
      · exact .inl h
      · exact .inr (.inr (.inr h))
  case other =>
    intro value h location taken n
    rw [viewViolations_other h, viewsUnder_other h]
    simp [viewNames]
  case leaf =>
    intro fields h location taken n
    rw [viewViolations, viewsUnder_leaf h, childrenViolations_leaf h]
    simp [viewNames]
  case container =>
    intro fields entries h ih location taken n
    rw [viewViolations, viewsUnder_container h, childrenViolations_container h]
    exact ih _ _ n
  case stray =>
    intro fields value h hv location taken n
    rw [viewViolations, viewsUnder_stray h hv, childrenViolations_stray h hv]
    simp [viewNames]

/-! ## 4. Views without violations -/

/-- **A pass over views finds nothing exactly if each view is as it has to be and the names are fresh.** -/
theorem viewsViolations_eq_nil_iff :
    (∀ (entries : List (String × Document)) (location : Location) (taken : Taken),
      (viewsViolations defaults location taken entries).1 = [] ↔
        (∀ entry ∈ viewsAmong entries, AdmissibleEntry defaults entry) ∧
          Fresh taken.keys (viewNames (viewsAmong entries))) ∧
    ∀ (value : Document) (location : Location) (taken : Taken),
      (viewViolations defaults location taken value).1 = [] ↔
        (∃ fields, value = .map fields ∧ AdmissibleView defaults fields) ∧
          (∀ entry ∈ viewsUnder value, AdmissibleEntry defaults entry) ∧
            Fresh taken.keys (viewNames (viewsUnder value)) := by
  refine views_induction ?nil ?cons ?other ?leaf ?container ?stray
  case nil =>
    intro location taken
    simp [viewsViolations, viewsAmong, viewNames, Fresh]
  case cons =>
    intro key value rest hvalue hrest location taken
    have hfresh : Fresh taken.keys (viewNames (viewsAmong ((key, value) :: rest))) ↔
        Name.view key ∉ taken.keys ∧
          Fresh (takeView taken (location ++ [key]) key).2.keys (viewNames (viewsUnder value)) ∧
            Fresh (viewViolations defaults (location ++ [key])
              (takeView taken (location ++ [key]) key).2 value).2.keys (viewNames (viewsAmong rest)) := by
      rw [viewNames_cons, fresh_append _ (mem_takeView taken (location ++ [key]) key), fresh_singleton,
        fresh_append _ (mem_taken.2 value _ _)]
    have hall : (∀ entry ∈ viewsAmong ((key, value) :: rest), AdmissibleEntry defaults entry) ↔
        AdmissibleEntry defaults (key, value) ∧
          (∀ entry ∈ viewsUnder value, AdmissibleEntry defaults entry) ∧
            ∀ entry ∈ viewsAmong rest, AdmissibleEntry defaults entry := by
      rw [viewsAmong, List.forall_mem_cons, List.forall_mem_append]
    rw [hfresh, hall, viewsViolations]
    show keyViolations _ key ++ _ ++ _ ++ (viewsViolations defaults location _ rest).1 = [] ↔ _
    rw [List.append_eq_nil_iff, List.append_eq_nil_iff, List.append_eq_nil_iff, keyViolations_eq_nil_iff,
      takeView_eq_nil_iff, hvalue, hrest]
    constructor
    · rintro ⟨⟨⟨hk, ht⟩, hv, hu, hf⟩, hr, hg⟩
      exact ⟨⟨⟨hk, hv⟩, hu, hr⟩, ht, hf, hg⟩
    · rintro ⟨⟨⟨hk, hv⟩, hu, hr⟩, ht, hf, hg⟩
      exact ⟨⟨⟨hk, ht⟩, hv, hu, hf⟩, hr, hg⟩
  case other =>
    intro value h location taken
    rw [viewViolations_other h]
    simp [h]
  case leaf =>
    intro fields h location taken
    have hr : HoldsMap fields childrenField := fun value hv => by rw [h] at hv; cases hv
    rw [viewViolations, viewsUnder_leaf h, childrenViolations_leaf h]
    show viewAttributeViolations defaults location fields ++ [] = [] ↔ _
    rw [List.append_nil, viewAttributeViolations_eq_nil_iff location fields hr]
    simp [viewNames, Fresh]
  case container =>
    intro fields entries h ih location taken
    have hr : HoldsMap fields childrenField := fun value hv => by
      rw [h] at hv
      cases hv
      exact ⟨entries, rfl⟩
    rw [viewViolations, viewsUnder_container h, childrenViolations_container h]
    show viewAttributeViolations defaults location fields ++ _ = [] ↔ _
    rw [List.append_eq_nil_iff, viewAttributeViolations_eq_nil_iff location fields hr, ih]
    simp
  case stray =>
    intro fields value h hv location taken
    rw [viewViolations, childrenViolations_stray h hv]
    constructor
    · intro hn
      simp at hn
    · rintro ⟨⟨fields', he, hview⟩, -⟩
      cases he
      obtain ⟨entries, hm⟩ := hview.routes value h
      exact absurd hm (hv entries)

/-! ## 5. Layouts and documents -/

theorem childrenViolations_eq_nil_iff (location : Location) (taken : Taken) (fields : Document.Fields) :
    (childrenViolations defaults location taken fields).1 = [] ↔
      HoldsMap fields childrenField ∧ (∀ entry ∈ viewsBelow fields, AdmissibleEntry defaults entry) ∧
        Fresh taken.keys (viewNames (viewsBelow fields)) := by
  rw [childrenViolations_eq, viewsBelow_eq]
  unfold HoldsMap
  cases fields.get? childrenField with
  | none => simp [viewNames, Fresh]
  | some value =>
      rcases map_or_not value with ⟨entries, rfl⟩ | hv
      · show (viewsViolations defaults _ taken entries).1 = [] ↔ _
        rw [viewsViolations_eq_nil_iff.1]
        simp [viewsWithin]
      · have hs : routesViolations defaults (location ++ [childrenField]) taken value =
            ([⟨location ++ [childrenField], .routesNotMap⟩], taken) := by
          cases value <;> first | rfl | exact absurd rfl (hv _)
        show (routesViolations defaults _ taken value).1 = [] ↔ _
        rw [hs]
        constructor
        · intro h
          cases h
        · rintro ⟨h, -⟩
          obtain ⟨entries, he⟩ := h value rfl
          exact absurd he (hv entries)

theorem layoutViolations_eq_nil_iff (location : Location) (value : Document) :
    layoutViolations defaults location value = [] ↔
      ∃ fields, value = .map fields ∧ AdmissibleLayout defaults fields := by
  rcases map_or_not value with ⟨fields, rfl⟩ | hv
  · have hicon : ((text? fields "icon").map (iconViolations location)).getD [] = [] ↔
        ∀ icon, Keyed.get? fields "icon" = some (.text icon) → IsIcon icon := by
      unfold text?
      cases Keyed.get? fields "icon" with
      | none => simp
      | some value => cases value <;> simp [iconViolations_eq_nil_iff]
    rw [layoutViolations, layoutAttributeViolations]
    simp only [List.append_eq_nil_iff, textViolations_eq_nil_iff, truthViolations_eq_nil_iff, hicon,
      childrenViolations_eq_nil_iff]
    constructor
    · rintro ⟨⟨⟨⟨⟨h1, h2⟩, h3⟩, h4⟩, h5⟩, h6, h7, h8, -⟩
      exact ⟨fields, rfl, h1, h2, h3, h4, h5, h6, h7, h8⟩
    · rintro ⟨fields', he, h⟩
      cases he
      exact ⟨⟨⟨⟨⟨h.path, h.title⟩, h.icon⟩, h.givenIcon⟩, h.sidebar⟩, h.routes, h.views, h.names,
        fun n _ hn => by cases hn⟩
  · have hs : layoutViolations defaults location value = [⟨location, .layoutNotMap⟩] := by
      cases value <;> first | rfl | exact absurd rfl (hv _)
    rw [hs]
    simp [hv]

/-- The pass over layouts, which takes the layout names along. -/
theorem layoutsViolations_eq_nil_iff (entries : List (String × Document)) (taken : Keyed String) :
    layoutsViolations defaults taken entries = [] ↔
      Fresh taken.keys (entries.map fun entry => Name.layout entry.1) ∧
        ∀ entry ∈ entries, Name.Fragment entry.1 ∧
          ∃ fields, entry.2 = .map fields ∧ AdmissibleLayout defaults fields := by
  induction entries generalizing taken with
  | nil => simp [layoutsViolations, Fresh]
  | cons entry rest ih =>
      obtain ⟨key, value⟩ := entry
      have hclash : (taken.get? (Name.layout key)).elim []
          (fun previous => [(⟨[key], .layoutTaken (Name.layout key) previous⟩ : Violation)]) = [] ↔
            Name.layout key ∉ taken.keys := by
        rw [← Keyed.get?_eq_none_iff]
        cases taken.get? (Name.layout key) <;> simp
      have hseen : ∀ n, n ∈ (taken.set (Name.layout key) key).keys ↔
          n ∈ [Name.layout key] ∨ n ∈ taken.keys := fun n => by
        rw [Keyed.mem_keys_set, List.mem_singleton]
      rw [layoutsViolations, List.forall_mem_cons]
      simp only [List.append_eq_nil_iff, keyViolations_eq_nil_iff, hclash, layoutViolations_eq_nil_iff, ih]
      rw [List.map_cons, ← List.singleton_append, fresh_append _ hseen, fresh_singleton]
      constructor
      · rintro ⟨⟨⟨hk, hc⟩, hl⟩, hf, hr⟩
        exact ⟨⟨hc, hf⟩, ⟨hk, hl⟩, hr⟩
      · rintro ⟨⟨hc, hf⟩, ⟨hk, hl⟩, hr⟩
        exact ⟨⟨⟨hk, hc⟩, hl⟩, hf, hr⟩

/-- **A document has no violations exactly if it is admissible.** -/
theorem violations_eq_nil_iff (document : Document) :
    violations defaults document = [] ↔ Admissible defaults document := by
  unfold Admissible
  rcases map_or_not document with ⟨entries, rfl⟩ | hd
  · rw [violations, layoutsViolations_eq_nil_iff]
    constructor
    · rintro ⟨⟨hn, -⟩, hl⟩
      exact ⟨entries, rfl, hn, hl⟩
    · rintro ⟨entries', he, hn, hl⟩
      cases he
      exact ⟨⟨hn, fun n _ h => by cases h⟩, hl⟩
  · have hs : violations defaults document = [⟨[], .documentNotMap⟩] := by
      cases document <;> first | rfl | exact absurd rfl (hd _)
    rw [hs]
    simp [hd]

end RouteScaffold.Spec
