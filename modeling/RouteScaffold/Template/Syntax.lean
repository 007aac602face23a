import RouteScaffold.Document

/-!
# Templates

A template is a text with tags in double braces. A tag writes a value, or begins, divides or ends a
block. In a `Template` the tags are put together to blocks; what stands behind a part is a template of its
own (`rest`), so that everything about templates is said by recursion on one type.
-/

namespace RouteScaffold

namespace Template

/-- A place in a template, line and column from 1. -/
structure Mark where
  line : Nat
  column : Nat
  deriving DecidableEq, Repr, Inhabited

/-- Where the way to a value begins. -/
inductive Origin where
  /-- In the value of the block that is so many blocks further out. -/
  | scope (up : Nat)
  /-- In the value of the whole template. -/
  | root
  /-- At a variable that the block so many blocks further out sets. -/
  | variable (up : Nat)
  deriving DecidableEq, Repr

/-- The way to a value: its spelling, where it begins, and the names on it. -/
structure Way where
  spelling : String
  origin : Origin
  names : List String
  deriving DecidableEq, Repr

/-- What a helper is applied to. -/
inductive Operand where
  | literal (value : Document)
  | value (way : Way)
  /-- The text that another helper writes. -/
  | call (helper : String) (operands : List Operand)
  deriving Inhabited

/-- What a tag holds. -/
inductive Phrase where
  /-- A helper and what it is applied to. -/
  | call (helper : String) (operands : List Operand)
  /-- A value, or a helper of that name applied to nothing. -/
  | name (way : Way)
  deriving Inhabited

end Template

/-- A template that is put together. -/
inductive Template where
  | nil
  | text (s : String) (rest : Template)
  /-- A tag that writes; `escaped`: a value is written with references for markup. -/
  | phrase (mark : Template.Mark) (phrase : Template.Phrase) (escaped : Bool) (rest : Template)
  /-- A block. `divided`: it has an other branch, maybe empty. -/
  | block (mark : Template.Mark) (helper : String) (operands : List Template.Operand)
      (body : Template) (divided : Bool) (other : Template) (rest : Template)
  deriving Inhabited

end RouteScaffold
