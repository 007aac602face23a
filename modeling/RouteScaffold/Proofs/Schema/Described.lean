import RouteScaffold.Proofs.Schema.Admissible

/-!
# The specification a document describes

`Describes defaults document spec` relates a document to a specification node by node: the same keys in the
same order, children exactly where `routes` is there, each attribute as given or else by default, and the
fields without a meaning kept in order. It is a relation and no reading; that validation reads an admissible
document as it describes is `validate_eq_ok_iff`.
-/

namespace RouteScaffold.Spec

/-! ## 1. The relation -/

/-- The value of an attribute: the given one, or the default where the field is missing. -/
def Given {α : Type} (wrap : α → Document) (default : α) (fields : Document.Fields) (name : String)
    (value : α) : Prop :=
  fields.get? name = some (wrap value) ∨ (fields.get? name = none ∧ value = default)

/-- The fields without a meaning, in order. -/
def Unknown (known : List String) (fields extra : Document.Fields) : Prop :=
  extra = fields.filter fun field => field.1 ∉ known

/-- What the fields of a view say of its attributes. -/
structure DescribesView (defaults : Defaults) (fields : Document.Fields) (info : ViewInfo) : Prop where
  path : Given .text "" fields "path" info.path
  title : Given .text defaults.title fields "title" info.title
  icon : Given .text defaults.icon fields "icon" info.icon
  sitemap : Given .bool false fields "sitemap" info.sitemap
  extra : Unknown ["path", "title", "icon", "sitemap", childrenField] fields info.extra

/-- The views that the entries of a mapping of views describe. -/
inductive DescribesViews (defaults : Defaults) : List (String × Document) → Views → Prop where
  | nil : DescribesViews defaults [] .nil
  | leaf {key : String} {fields : Document.Fields} {info : ViewInfo} {rest : List (String × Document)}
      {views : Views} (hr : fields.get? childrenField = none) (hi : DescribesView defaults fields info)
      (h : DescribesViews defaults rest views) :
      DescribesViews defaults ((key, .map fields) :: rest) (.leaf key info views)
  | container {key : String} {fields : Document.Fields} {info : ViewInfo}
      {entries rest : List (String × Document)} {children views : Views}
      (hr : fields.get? childrenField = some (.map entries)) (hi : DescribesView defaults fields info)
      (hc : DescribesViews defaults entries children) (h : DescribesViews defaults rest views) :
      DescribesViews defaults ((key, .map fields) :: rest) (.container key info children views)

/-- What the value under `routes` says of the views below a layout: there are some exactly where it is. -/
def DescribesChildren (defaults : Defaults) (fields : Document.Fields) : Option Views → Prop
  | none => fields.get? childrenField = none
  | some views => ∃ entries, fields.get? childrenField = some (.map entries) ∧ DescribesViews defaults entries views

/-- What the fields of a layout say of it. A layout without an icon has none. -/
structure DescribesLayout (defaults : Defaults) (fields : Document.Fields) (layout : Layout) : Prop where
  path : Given .text "" fields "path" layout.path
  title : Given .text defaults.title fields "title" layout.title
  icon : fields.get? "icon" = layout.icon.map .text
  sidebar : Given .bool false fields "sidebar" layout.sidebar
  children : DescribesChildren defaults fields layout.children
  extra : Unknown ["path", "title", "icon", "sidebar", childrenField] fields layout.extra

/-- The layouts that the entries of a document describe. -/
inductive DescribesLayouts (defaults : Defaults) : List (String × Document) → Keyed Layout → Prop where
  | nil : DescribesLayouts defaults [] []
  | cons {key : String} {fields : Document.Fields} {layout : Layout} {rest : List (String × Document)}
      {layouts : Keyed Layout} (hl : DescribesLayout defaults fields layout)
      (h : DescribesLayouts defaults rest layouts) :
      DescribesLayouts defaults ((key, .map fields) :: rest) ((key, layout) :: layouts)

/-- **The specification that a document describes.** -/
def Describes (defaults : Defaults) (document : Document) (spec : Spec) : Prop :=
  ∃ entries, document = .map entries ∧ DescribesLayouts defaults entries spec.layouts

/-! ## 2. Attributes -/

variable {defaults : Defaults} {fields : Document.Fields} {name : String}

/-- A field that holds a text is read as given or by default. -/
theorem given_text (default : String) (h : HoldsText fields name) :
    Given .text default fields name ((text? fields name).getD default) := by
  unfold Given text?
  cases hf : fields.get? name with
  | none => exact .inr ⟨rfl, rfl⟩
  | some value =>
      obtain ⟨s, rfl⟩ := h value hf
      exact .inl rfl

theorem given_truth (default : Bool) (h : HoldsTruth fields name) :
    Given .bool default fields name ((truth? fields name).getD default) := by
  unfold Given truth?
  cases hf : fields.get? name with
  | none => exact .inr ⟨rfl, rfl⟩
  | some value =>
      obtain ⟨b, rfl⟩ := h value hf
      exact .inl rfl

/-- The reading of a text is the only value the fields give. -/
theorem Given.text_eq {default value : String} (h : Given .text default fields name value) :
    value = (text? fields name).getD default := by
  unfold text?
  rcases h with h | ⟨h, rfl⟩
  · rw [h]
    rfl
  · rw [h]
    rfl

theorem Given.truth_eq {default value : Bool} (h : Given .bool default fields name value) :
    value = (truth? fields name).getD default := by
  unfold truth?
  rcases h with h | ⟨h, rfl⟩
  · rw [h]
    rfl
  · rw [h]
    rfl

theorem unknown_iff (known : List String) (extra : Document.Fields) :
    Unknown known fields extra ↔ extra = extraFields known fields := by
  have h : (fun field : String × Document => decide (field.1 ∉ known)) =
      fun field => !known.contains field.1 := by
    funext field
    simp
  unfold Unknown extraFields
  rw [h]

theorem describesView_viewInfo (h : AdmissibleView defaults fields) :
    DescribesView defaults fields (viewInfo defaults fields) where
  path := given_text "" h.path
  title := given_text defaults.title h.title
  icon := given_text defaults.icon h.icon
  sitemap := given_truth false h.sitemap
  extra := (unknown_iff viewFields _).mpr rfl

theorem DescribesView.eq {info : ViewInfo} (h : DescribesView defaults fields info) :
    info = viewInfo defaults fields := by
  obtain ⟨path, title, icon, sitemap, extra⟩ := info
  obtain ⟨h1, h2, h3, h4, h5⟩ := h
  have e1 := h1.text_eq
  have e2 := h2.text_eq
  have e3 := h3.text_eq
  have e4 := h4.truth_eq
  have e5 := (unknown_iff viewFields _).mp h5
  simp only at e1 e2 e3 e4 e5
  rw [e1, e2, e3, e4, e5]
  rfl

/-! ## 3. Views -/

/-- **The reading of admissible views is what their entries describe.** -/
theorem describesViews_viewsOf :
    (∀ entries : List (String × Document), (∀ entry ∈ viewsAmong entries, AdmissibleEntry defaults entry) →
      DescribesViews defaults entries (viewsOf defaults entries)) ∧
    ∀ value : Document, (∃ fields, value = .map fields ∧ AdmissibleView defaults fields) →
      (∀ entry ∈ viewsUnder value, AdmissibleEntry defaults entry) →
      ∀ (key : String) (rest : List (String × Document)) (views : Views),
        DescribesViews defaults rest views →
          DescribesViews defaults ((key, value) :: rest) (viewOf defaults key value views) := by
  refine views_induction ?nil ?cons ?other ?leaf ?container ?stray
  case nil => exact fun _ => .nil
  case cons =>
    intro key value rest hvalue hrest h
    rw [viewsAmong, List.forall_mem_cons, List.forall_mem_append] at h
    obtain ⟨⟨-, hkey⟩, hunder, hamong⟩ := h
    exact hvalue hkey hunder key rest _ (hrest hamong)
  case other =>
    rintro value h ⟨fields, he, -⟩
    exact absurd he (h fields)
  case leaf =>
    rintro fields h ⟨fields', he, hview⟩ - key rest views hrest
    cases he
    rw [viewOf, childrenOf_eq, h]
    exact .leaf h (describesView_viewInfo hview) hrest
  case container =>
    rintro fields entries h ih ⟨fields', he, hview⟩ hunder key rest views hrest
    cases he
    rw [viewsUnder_container h] at hunder
    rw [viewOf, childrenOf_eq, h]
    exact .container h (describesView_viewInfo hview) (ih hunder) hrest
  case stray =>
    rintro fields value h hv ⟨fields', he, hview⟩
    cases he
    obtain ⟨entries, hm⟩ := hview.routes value h
    exact absurd hm (hv entries)

/-- **Entries describe no other views than their reading.** -/
theorem DescribesViews.eq {entries : List (String × Document)} {views : Views}
    (h : DescribesViews defaults entries views) : views = viewsOf defaults entries := by
  induction h with
  | nil => rfl
  | leaf hr hi _ ih =>
      rw [viewsOf, viewOf, childrenOf_eq, hr, hi.eq, ih]
      rfl
  | container hr hi _ _ ihc ih =>
      rw [viewsOf, viewOf, childrenOf_eq, hr, hi.eq, ih, ihc]
      rfl

/-! ## 4. Layouts -/

theorem describesChildren_childrenOf (h : AdmissibleLayout defaults fields) :
    DescribesChildren defaults fields (childrenOf defaults fields) := by
  rw [childrenOf_eq]
  cases hr : fields.get? childrenField with
  | none => exact hr
  | some value =>
      obtain ⟨entries, rfl⟩ := h.routes value hr
      refine ⟨entries, hr, describesViews_viewsOf.1 entries ?_⟩
      have hv := h.views
      rw [viewsBelow_eq, hr] at hv
      exact hv

theorem DescribesChildren.eq {children : Option Views} (h : DescribesChildren defaults fields children) :
    children = childrenOf defaults fields := by
  rw [childrenOf_eq]
  cases children with
  | none =>
      have hr : fields.get? childrenField = none := h
      rw [hr]
      rfl
  | some views =>
      obtain ⟨entries, hr, hd⟩ := h
      rw [hr, hd.eq]
      rfl

theorem describesLayout_layoutOf (h : AdmissibleLayout defaults fields) :
    DescribesLayout defaults fields (layoutOf defaults fields) where
  path := given_text "" h.path
  title := given_text defaults.title h.title
  icon := by
    show fields.get? "icon" = (text? fields "icon").map .text
    unfold text?
    cases hi : fields.get? "icon" with
    | none => rfl
    | some value =>
        obtain ⟨icon, rfl⟩ := h.icon value hi
        rfl
  sidebar := given_truth false h.sidebar
  children := describesChildren_childrenOf h
  extra := (unknown_iff layoutFields _).mpr rfl

theorem DescribesLayout.eq {layout : Layout} (h : DescribesLayout defaults fields layout) :
    layout = layoutOf defaults fields := by
  obtain ⟨path, title, icon, sidebar, children, extra⟩ := layout
  obtain ⟨h1, h2, h3, h4, h5, h6⟩ := h
  have e1 := h1.text_eq
  have e2 := h2.text_eq
  have e3 : icon = text? fields "icon" := by
    unfold text?
    rw [h3]
    cases icon <;> rfl
  have e4 := h4.truth_eq
  have e5 := h5.eq
  have e6 := (unknown_iff layoutFields _).mp h6
  simp only at e1 e2 e4 e5 e6
  rw [e1, e2, e3, e4, e5, e6]
  rfl

/-! ## 5. Documents -/

theorem describesLayouts_layoutsOf (entries : List (String × Document))
    (h : ∀ entry ∈ entries, ∃ fields, entry.2 = .map fields ∧ AdmissibleLayout defaults fields) :
    DescribesLayouts defaults entries (layoutsOf defaults entries) := by
  induction entries with
  | nil => exact .nil
  | cons entry rest ih =>
      obtain ⟨key, value⟩ := entry
      rw [List.forall_mem_cons] at h
      obtain ⟨⟨fields, he, hl⟩, hrest⟩ := h
      have hv : value = .map fields := he
      rw [hv]
      exact .cons (describesLayout_layoutOf hl) (ih hrest)

theorem DescribesLayouts.eq {entries : List (String × Document)} {layouts : Keyed Layout}
    (h : DescribesLayouts defaults entries layouts) : layouts = layoutsOf defaults entries := by
  induction h with
  | nil => rfl
  | cons hl _ ih =>
      rw [hl.eq, ih]
      rfl

/-- **The reading of an admissible document is what it describes.** -/
theorem describes_ofDocument {document : Document} (h : Admissible defaults document) :
    Describes defaults document (ofDocument defaults document) := by
  obtain ⟨entries, rfl, -, hl⟩ := h
  exact ⟨entries, rfl, describesLayouts_layoutsOf entries fun entry he => (hl entry he).2⟩

/-- **A document describes no other specification than its reading.** -/
theorem Describes.eq {document : Document} {spec : Spec} (h : Describes defaults document spec) :
    spec = ofDocument defaults document := by
  obtain ⟨entries, rfl, hd⟩ := h
  obtain ⟨layouts⟩ := spec
  rw [ofDocument, ← hd.eq]

/-! ## 6. Validation -/

/-- Validation gives the reading of the document, if there are no violations. -/
theorem validate_eq_ok_iff (document : Document) (spec : Spec) :
    validate defaults document = .ok spec ↔
      violations defaults document = [] ∧ spec = ofDocument defaults document := by
  unfold validate
  cases violations defaults document with
  | nil =>
      simp only [Except.ok.injEq, true_and]
      exact eq_comm
  | cons v vs => simp

/-- **Validation accepts exactly the admissible documents, and gives what they describe.** -/
theorem validate_ok_iff_admissible (defaults : Defaults) (document : Document) :
    ((∃ spec, validate defaults document = .ok spec) ↔ Admissible defaults document) ∧
      ∀ spec, validate defaults document = .ok spec ↔
        Admissible defaults document ∧ Describes defaults document spec := by
  constructor
  · rw [← violations_eq_nil_iff]
    constructor
    · rintro ⟨spec, h⟩
      exact ((validate_eq_ok_iff document spec).mp h).1
    · exact fun h => ⟨_, (validate_eq_ok_iff document _).mpr ⟨h, rfl⟩⟩
  · intro spec
    rw [validate_eq_ok_iff, violations_eq_nil_iff]
    constructor
    · rintro ⟨h, rfl⟩
      exact ⟨h, describes_ofDocument h⟩
    · rintro ⟨h, hd⟩
      exact ⟨h, hd.eq⟩

end RouteScaffold.Spec
