import RouteScaffold.Keyed

/-!
# Environments

The variables that a run sees, by name.
-/

namespace RouteScaffold

/-- The variables that are set, with their values. -/
abbrev Environment := Keyed String

namespace Environment

/-- The value of a variable. -/
def value? (environment : Environment) (name : String) : Option String := Keyed.get? environment name

/-- The environment with a variable set, unless it is set already. -/
def provide (environment : Environment) (name value : String) : Environment :=
  if (environment.value? name).isSome then environment else Keyed.set environment name value

/-- Does a variable say yes? None if it is not set. -/
def truth? (environment : Environment) (name : String) : Option Bool :=
  (environment.value? name).map fun value =>
    let value := String.ofList (value.toList.map Char.toLower)
    value = "true" ∨ value = "1" ∨ value = "yes"

end Environment

end RouteScaffold
