import RouteScaffold.Spec.Violation

/-!
# From documents to specifications

`Spec.ofDocument` reads a document as a specification with the defaults put in, passing over what does
not fit; `Spec.validate` gives that specification when the document has no violations, and else the
violations.
-/

namespace RouteScaffold.Spec

/-- The fields without a meaning. -/
def extraFields (known : List String) (fields : Document.Fields) : Document.Fields :=
  fields.filter fun (key, _) => !known.contains key

/-- The attributes of a view with these fields. -/
def viewInfo (defaults : Defaults) (fields : Document.Fields) : ViewInfo where
  path := (text? fields "path").getD ""
  title := (text? fields "title").getD defaults.title
  icon := (text? fields "icon").getD defaults.icon
  sitemap := (truth? fields "sitemap").getD false
  extra := extraFields viewFields fields

mutual

/-- The views below a node with these fields, if it has a mapping of views. -/
def childrenOf (defaults : Defaults) : List (String × Document) → Option Views
  | [] => none
  | (name, value) :: rest =>
    if name = childrenField then routesOf defaults value else childrenOf defaults rest

/-- The views of a mapping of views. -/
def routesOf (defaults : Defaults) : Document → Option Views
  | .map entries => some (viewsOf defaults entries)
  | _ => none

/-- The views of the entries of a mapping. -/
def viewsOf (defaults : Defaults) : List (String × Document) → Views
  | [] => .nil
  | (key, value) :: rest => viewOf defaults key value (viewsOf defaults rest)

/-- A view ahead of the views behind it. -/
def viewOf (defaults : Defaults) (key : String) (value : Document) (rest : Views) : Views :=
  match value with
  | .map fields =>
    match childrenOf defaults fields with
    | none => .leaf key (viewInfo defaults fields) rest
    | some children => .container key (viewInfo defaults fields) children rest
  | _ => rest

end

/-- The layout with these fields. -/
def layoutOf (defaults : Defaults) (fields : Document.Fields) : Layout where
  path := (text? fields "path").getD ""
  title := (text? fields "title").getD defaults.title
  icon := text? fields "icon"
  sidebar := (truth? fields "sidebar").getD false
  children := childrenOf defaults fields
  extra := extraFields layoutFields fields

/-- The layouts of the entries of a document. -/
def layoutsOf (defaults : Defaults) (entries : Document.Fields) : Keyed Layout :=
  entries.filterMap fun (key, value) =>
    match value with
    | .map fields => some (key, layoutOf defaults fields)
    | _ => none

/-- The specification that a document describes. -/
def ofDocument (defaults : Defaults) : Document → Spec
  | .map entries => ⟨layoutsOf defaults entries⟩
  | _ => ⟨[]⟩

/-- The specification of a document without violations. -/
def validate (defaults : Defaults) (document : Document) : Except (List Violation) Spec :=
  match violations defaults document with
  | [] => .ok (ofDocument defaults document)
  | found => .error found

end RouteScaffold.Spec
