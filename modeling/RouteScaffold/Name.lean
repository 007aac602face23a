import RouteScaffold.Text.Upper

/-!
# Names derived from keys

A key of the route specification names a component of the project: `home` gives the layout
`HomeLayout` or the view `HomeView`. Keys and icons have to be identifier fragments, so that the
derived names are identifiers of the generated modules.
-/

namespace RouteScaffold.Name

/-! ## 1. Derived names -/

/-- The key with its first character in upper case. -/
def capitalize (key : String) : String :=
  match key.toList with
  | [] => ""
  | c :: rest => String.ofList (Text.upperChar c ++ rest)

/-- Name of the component of a view. -/
def view (key : String) : String := capitalize key ++ "View"

/-- Name of the component of a layout. -/
def layout (key : String) : String := capitalize key ++ "Layout"

/-! ## 2. Identifier fragments -/

/-- May the character start an identifier fragment? Letters are those of ASCII. -/
def isIdentifierStart (c : Char) : Bool := c.isAlpha || c == '_' || c == '$'

/-- May the character continue an identifier fragment? Letters and digits are those of ASCII. -/
def isIdentifierRest (c : Char) : Bool := c.isAlphanum || c == '_' || c == '$'

/-- A letter, `_` or `$`, followed by any number of letters, digits, `_` and `$`. -/
def isIdentifier (key : String) : Bool :=
  match key.toList with
  | [] => false
  | c :: rest => isIdentifierStart c && rest.all isIdentifierRest

end RouteScaffold.Name
