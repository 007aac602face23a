/-!
# The values of a script

What the expressions of the routing module stand for. An object holds its own members in order and may have another
object behind it; markup holds a tag, its attributes and what stands between its tags.
-/

namespace RouteScaffold.Script

/-- A value of a script. -/
inductive Value where
  /-- What is not there. -/
  | missing
  /-- The value that stands for nothing. -/
  | nothing
  | truth (value : Bool)
  | number (value : Nat)
  | text (value : String)
  | array (items : List Value)
  /-- An object with its own members, and the object that stands behind it if that is not the common one. -/
  | object (own : List (String × Value)) (behind : Option Value)
  | markup (tag : String) (attributes : List (String × Value)) (children : List Value)

/-- The members of an object in order. -/
abbrev Members := List (String × Value)

/-- An object with members of its own only. -/
def Value.plain (own : Members) : Value := .object own none

/-- The markup of a component without attributes. -/
def Value.component (name : String) : Value := .markup name [] []

end RouteScaffold.Script
