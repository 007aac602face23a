import RouteScaffold.Environment

/-!
# References to variables

In the text of a configuration `${NAME}` stands for the value of a variable, and `${NAME:-VALUE}` for a value if
there is no such variable: references are what a pattern describes (`Reference.patternText`). `Reference.find?` finds
the first reference in a text, and `Reference.expand` puts its value in its place and goes on with what is behind it. A
value is not searched for references.
-/

namespace RouteScaffold

/-- A reference to a variable. -/
structure Reference where
  name : List Char
  /-- What stands for the variable if there is none. -/
  fallback : Option (List Char)
  deriving DecidableEq, Repr

namespace Reference

/-! ## 1. Finding references -/

/-- The text of the pattern that references follow. -/
def patternText : String := "\\$\\\x7b([^\x7d:]+)(?::-([^\x7d]*))?\\\x7d"

/-- May the character stand in a name? -/
def isNamePart (c : Char) : Bool := c != '}' && c != ':'

/-- May the character stand in a fallback? -/
def isFallbackPart (c : Char) : Bool := c != '}'

/-- The reference with a name, and the text behind it, by what follows the name. -/
def ending? (name : List Char) : List Char → Option (Reference × List Char)
  | '}' :: rest => some (⟨name, none⟩, rest)
  | ':' :: '-' :: text =>
    match text.dropWhile isFallbackPart with
    | _ :: rest => some (⟨name, some (text.takeWhile isFallbackPart)⟩, rest)
    | [] => none
  | _ => none

/-- The reference at the front of a text, and the text behind it. -/
def first? : List Char → Option (Reference × List Char)
  | '$' :: '{' :: text =>
    if (text.takeWhile isNamePart).isEmpty then none
    else ending? (text.takeWhile isNamePart) (text.dropWhile isNamePart)
  | _ => none

/-- The first reference in a text, with the text ahead of it and the text behind it. -/
def find? : List Char → Option (List Char × Reference × List Char)
  | [] => none
  | c :: rest =>
    match first? (c :: rest) with
    | some (reference, behind) => some ([], reference, behind)
    | none => (find? rest).map fun (ahead, reference, behind) => (c :: ahead, reference, behind)

/-- What is behind a reference is shorter than what follows its name. -/
theorem length_lt_of_ending? {name text rest : List Char} {reference : Reference}
    (h : ending? name text = some (reference, rest)) : rest.length < text.length := by
  unfold ending? at h
  split at h
  · simp_all
  · rename_i text
    have drop : (text.dropWhile isFallbackPart).length ≤ text.length :=
      (List.dropWhile_suffix _).length_le
    split at h
    · rename_i eq
      rw [eq] at drop
      simp_all only [Option.some.injEq, Prod.mk.injEq, List.length_cons]
      omega
    · simp at h
  · simp at h

/-- What is behind a reference is shorter than the text. -/
theorem length_lt_of_first? {text rest : List Char} {reference : Reference}
    (h : first? text = some (reference, rest)) : rest.length < text.length := by
  unfold first? at h
  split at h
  · rename_i text
    split at h
    · simp at h
    · have drop : (text.dropWhile isNamePart).length ≤ text.length :=
        (List.dropWhile_suffix _).length_le
      have behind := length_lt_of_ending? h
      simp only [List.length_cons]
      omega
  · simp at h

/-- What is behind the first reference is shorter than the text. -/
theorem length_lt_of_find? {text ahead behind : List Char} {reference : Reference}
    (h : find? text = some (ahead, reference, behind)) : behind.length < text.length := by
  induction text generalizing ahead with
  | nil => cases h
  | cons c rest ih =>
      unfold find? at h
      split at h
      · next found =>
        cases h
        exact length_lt_of_first? found
      · obtain ⟨⟨ahead', reference', behind'⟩, found, he⟩ := Option.map_eq_some_iff.mp h
        cases he
        exact Nat.lt_succ_of_lt (ih found)

/-! ## 2. Putting values in -/

/-- The value of a reference; one without variable and fallback gives its name as an error. -/
def value (lookup : String → Option String) (reference : Reference) : Except String (List Char) :=
  match lookup (String.ofList reference.name), reference.fallback with
  | some value, _ => .ok value.toList
  | none, some value => .ok value
  | none, none => .error (String.ofList reference.name)

/-- The characters of a text with the values of its references, or the name of the first that has none. -/
def expandChars (lookup : String → Option String) (text : List Char) : Except String (List Char) :=
  match found : find? text with
  | none => .ok text
  | some (ahead, reference, behind) => do
    have := length_lt_of_find? found
    let value ← reference.value lookup
    let rest ← expandChars lookup behind
    return ahead ++ value ++ rest
termination_by text.length

/-- The text with the values of its references, or the name of the first that has none. -/
def expand (lookup : String → Option String) (text : String) : Except String String :=
  String.ofList <$> expandChars lookup text.toList

end Reference

end RouteScaffold
