import RouteScaffold.Proofs.RoutingModule.Lines
import RouteScaffold.RoutingModule.Parts

/-!
# The names that a module text binds

`topNames` reads the names that the statements of a module bind at its top level off the text: statements begin
at the margin, and `import`, `const` and `function` are followed by the names. The reading goes line by line, and an
indented line binds nothing (`Indented.topNames`).
-/

namespace RouteScaffold.RoutingModule

/-! ## 1. Identifiers -/

/-- The identifiers in a text, the first beginning with the characters already read. -/
def identifiersFrom : List Char → List Char → List String
  | [], [] => []
  | word, [] => [String.ofList word]
  | word, c :: rest =>
    if Name.isIdentifierRest c then identifiersFrom (word ++ [c]) rest
    else (if word = [] then [] else [String.ofList word]) ++ identifiersFrom [] rest

/-- The identifiers in a text. -/
def identifiers (chars : List Char) : List String := identifiersFrom [] chars

theorem identifiersFrom_word {w : List Char} (h : ∀ d ∈ w, Name.Follow d) (word rest : List Char) :
    identifiersFrom word (w ++ rest) = identifiersFrom (word ++ w) rest := by
  induction w generalizing word with
  | nil => rw [List.nil_append, List.append_nil]
  | cons c w ih =>
      rw [List.forall_mem_cons, ← Name.isIdentifierRest_iff] at h
      rw [List.cons_append]
      cases word with
      | nil => rw [identifiersFrom, if_pos h.1, ih h.2]; rfl
      | cons d word => rw [identifiersFrom, if_pos h.1, ih h.2, List.append_assoc]; rfl

/-- **An identifier ahead of another character is the first.** -/
theorem identifiers_cons {name : String} (h : Name.Fragment name) {c : Char} (hc : Name.isIdentifierRest c = false)
    (rest : List Char) : identifiers (name.toList ++ c :: rest) = name :: identifiers rest := by
  have hne : name.toList ≠ [] := by
    obtain ⟨d, ds, hd, -⟩ := h
    rw [hd]
    exact List.cons_ne_nil d ds
  have hc' : ¬Name.isIdentifierRest c = true := by
    rw [hc]
    exact Bool.false_ne_true
  rw [identifiers, identifiersFrom_word h.follow, List.nil_append, identifiersFrom, if_neg hc', if_neg hne,
    String.ofList_toList]
  rfl

/-- A character that is in no identifier is passed over. -/
theorem identifiers_skip {c : Char} (hc : Name.isIdentifierRest c = false) (rest : List Char) :
    identifiers (c :: rest) = identifiers rest := by
  have hc' : ¬Name.isIdentifierRest c = true := by
    rw [hc]
    exact Bool.false_ne_true
  rw [identifiers, identifiersFrom, if_neg hc', if_pos rfl]
  rfl

/-- **The identifiers of an import list are its names.** -/
theorem identifiers_importList {names : List String} (h : ∀ name ∈ names, Name.Fragment name) :
    identifiers ((", ".intercalate names).toList ++ [' ']) = names := by
  induction names with
  | nil => rfl
  | cons name rest ih =>
      rw [List.forall_mem_cons] at h
      cases rest with
      | nil =>
          rw [String.intercalate_singleton, identifiers_cons h.1 (by decide)]
          rfl
      | cons next more =>
          have hsep : (", ").toList = [',', ' '] := rfl
          rw [String.intercalate_cons_cons, String.toList_append, String.toList_append, List.append_assoc,
            List.append_assoc, hsep, List.cons_append, identifiers_cons h.1 (by decide), List.cons_append,
            List.nil_append, identifiers_skip (by decide), ih h.2]

/-! ## 2. Names bound at the top level -/

/-- What follows a text at the beginning of a line. -/
def after? (text : String) (line : List Char) : Option (List Char) :=
  if text.toList.isPrefixOf line then some (line.drop text.toList.length) else none

theorem after?_append (text : String) (rest : List Char) : after? text (text.toList ++ rest) = some rest := by
  unfold after?
  rw [if_pos (List.isPrefixOf_iff_prefix.mpr (List.prefix_append _ _)), List.drop_left]

/-- The names that a line binds: those between braces behind `import`, or the one behind `import`, `const` or
    `function`. An indented line belongs to a statement begun before. -/
def lineNames (line : List Char) : List String :=
  match after? "import \x7b" line with
  | some rest => identifiers (rest.takeWhile (· != '}'))
  | none =>
    match ["import ", "const ", "function "].findSome? fun word => after? word line with
    | some rest => (identifiers rest).take 1
    | none => []

/-- The names that a module text binds at its top level, in order. -/
def topNames (text : String) : List String := (linesFrom [] text.toList).flatMap lineNames

theorem topNames_unlines (lines : List String) : topNames (Text.unlines lines) = lines.flatMap topNames :=
  (byLine_unlines lineNames lines).trans (List.append_nil _)

/-- Lines with a line end between any two, between a beginning and an end. -/
theorem topNames_intercalate (front back line last : String) (rest : List String) :
    topNames (front ++ "\n".intercalate (line :: (rest ++ [last])) ++ back) =
      topNames (front ++ line) ++ rest.flatMap topNames ++ topNames (last ++ back) :=
  byLine_intercalate lineNames front back line last rest

theorem topNames_line {line : String} (h : OneLine line) : topNames line = lineNames line.toList :=
  byLine_line lineNames h

/-! ## 3. Indented lines -/

/-- An indented line. -/
structure Indented (line : String) : Prop where
  oneLine : OneLine line
  blank : ∃ rest, line.toList = ' ' :: rest

/-- **An indented line binds nothing.** -/
theorem Indented.topNames {line : String} (h : Indented line) : topNames line = [] := by
  obtain ⟨rest, hr⟩ := h.blank
  rw [topNames_line h.oneLine, hr]
  rfl

end RouteScaffold.RoutingModule
