import RouteScaffold.Proofs.Names
import RouteScaffold.Text.Markup

/-!
# Texts read line by line

A text is parted at its line ends (`linesFrom`). What is read off each line alone (`byLine`) is read off the parts of a
text one after the other: of two texts with a line end between them (`byLine_newline`), of lines (`byLine_unlines`)
and of a text that is spread over lines (`byLine_intercalate`). Names and quoted texts have no line end in them, and
neither has a text that can stand between quotes as it is (`Plain`).
-/

namespace RouteScaffold.RoutingModule

/-! ## 1. Lines -/

/-- The lines of a text, the first beginning with the characters already read. -/
def linesFrom : List Char → List Char → List (List Char)
  | line, [] => [line]
  | line, c :: rest => if c = '\n' then line :: linesFrom [] rest else linesFrom (line ++ [c]) rest

/-- **A line end parts the lines of a text.** -/
theorem linesFrom_newline (a b line : List Char) :
    linesFrom line (a ++ '\n' :: b) = linesFrom line a ++ linesFrom [] b := by
  induction a generalizing line with
  | nil => rfl
  | cons c rest ih =>
      rw [List.cons_append, linesFrom, linesFrom]
      by_cases h : c = '\n'
      · rw [if_pos h, if_pos h, ih, List.cons_append]
      · rw [if_neg h, if_neg h, ih]

/-- A text without line ends is one line. -/
theorem linesFrom_single {a : List Char} (h : '\n' ∉ a) (line : List Char) :
    linesFrom line a = [line ++ a] := by
  induction a generalizing line with
  | nil => rw [linesFrom, List.append_nil]
  | cons c rest ih =>
      rw [List.mem_cons, not_or] at h
      rw [linesFrom, if_neg (Ne.symm h.1), ih h.2, List.append_assoc, List.singleton_append]

/-! ## 2. Single lines -/

/-- A text without a line end in it. -/
def OneLine (text : String) : Prop := '\n' ∉ text.toList

instance (text : String) : Decidable (OneLine text) := inferInstanceAs (Decidable ('\n' ∉ text.toList))

theorem OneLine.append {a b : String} (ha : OneLine a) (hb : OneLine b) : OneLine (a ++ b) := by
  unfold OneLine at *
  rw [String.toList_append, List.mem_append, not_or]
  exact ⟨ha, hb⟩

/-- A text that can stand between quotes as it is. -/
def Plain (text : String) : Prop := ∀ c ∈ text.toList, c ≠ '"' ∧ c ≠ '\\' ∧ c ≠ '\n' ∧ c ≠ '\r'

instance (text : String) : Decidable (Plain text) :=
  List.decidableBAll (fun c => c ≠ '"' ∧ c ≠ '\\' ∧ c ≠ '\n' ∧ c ≠ '\r') text.toList

theorem Plain.oneLine {text : String} (h : Plain text) : OneLine text := fun hm => (h '\n' hm).2.2.1 rfl

theorem Plain.append {a b : String} (ha : Plain a) (hb : Plain b) : Plain (a ++ b) := by
  unfold Plain at *
  rw [String.toList_append, List.forall_mem_append]
  exact ⟨ha, hb⟩

theorem plain_fragment {name : String} (h : Name.Fragment name) : Plain name := by
  have hother : ∀ c e : Char, c ∈ name.toList → Name.isIdentifierRest e = false → c ≠ e := by
    rintro c e hc he rfl
    rw [(Name.isIdentifierRest_iff c).mpr (h.follow c hc)] at he
    cases he
  exact fun c hc => ⟨hother c _ hc (by decide), hother c _ hc (by decide), hother c _ hc (by decide),
    hother c _ hc (by decide)⟩

theorem oneLine_fragment {name : String} (h : Name.Fragment name) : OneLine name := (plain_fragment h).oneLine

/-- What stands for a character between quotes is no line end. -/
theorem newline_not_mem_escape (c : Char) : '\n' ∉ Text.escape c := by
  have hdigit : ∀ n < 16, '\n' ≠ Text.hexDigit n := by decide
  unfold Text.escape
  by_cases hn : c = '\n'
  · rw [hn]
    decide
  · split
    · decide
    split
    · decide
    split
    · decide
    split
    · decide
    split
    · decide
    split
    · decide
    split
    · decide
    split
    · next hlow =>
      have h1 := hdigit (c.toNat / 16) (by omega)
      have h2 := hdigit (c.toNat % 16) (by omega)
      simp [h1, h2]
    · simpa using Ne.symm hn

/-- A quoted text is one line, whatever its characters. -/
theorem oneLine_quote (text : String) : OneLine (Text.quote text) := by
  unfold OneLine Text.quote Text.quoteChars
  rw [String.toList_ofList, List.mem_cons, List.mem_append, List.mem_singleton, List.mem_flatMap, not_or, not_or]
  exact ⟨by decide, fun ⟨c, _, hc⟩ => newline_not_mem_escape c hc, by decide⟩

theorem unlines_nil : Text.unlines [] = "" := rfl

theorem unlines_cons (line : String) (rest : List String) :
    Text.unlines (line :: rest) = line ++ "\n" ++ Text.unlines rest := by
  rw [Text.unlines, List.map_cons, String.join_cons]
  rfl

theorem unlines_append (lines more : List String) :
    Text.unlines (lines ++ more) = Text.unlines lines ++ Text.unlines more := by
  rw [Text.unlines, List.map_append, String.join_append]
  rfl

/-- Lines written item by item are the lines of all items. -/
theorem join_unlines {α : Type} (lines : α → List String) (items : List α) :
    String.join (items.map fun x => Text.unlines (lines x)) = Text.unlines (items.flatMap lines) := by
  induction items with
  | nil => rfl
  | cons x rest ih => rw [List.map_cons, String.join_cons, ih, List.flatMap_cons, unlines_append]

theorem toList_unlines (lines : List String) :
    (Text.unlines lines).toList = lines.flatMap fun line => line.toList ++ ['\n'] := by
  induction lines with
  | nil => rfl
  | cons line rest ih =>
      rw [unlines_cons, String.toList_append, String.toList_append, ih, List.flatMap_cons]
      rfl

/-! ## 3. Readings -/

section Reading

variable {α : Type} (read : List Char → List α)

/-- What is read off the lines of a text, one after the other. -/
def byLine (text : String) : List α := (linesFrom [] text.toList).flatMap read

/-- **Of a text with a line end in it the parts are read.** -/
theorem byLine_newline (a b : String) : byLine read (a ++ "\n" ++ b) = byLine read a ++ byLine read b := by
  have hend : ("\n").toList = ['\n'] := rfl
  rw [byLine, String.toList_append, String.toList_append, hend, List.append_assoc, List.singleton_append,
    linesFrom_newline, List.flatMap_append]
  rfl

/-- Of lines each is read; behind the last line end is an empty line. -/
theorem byLine_unlines (lines : List String) :
    byLine read (Text.unlines lines) = lines.flatMap (byLine read) ++ read [] := by
  induction lines with
  | nil => exact List.append_nil _
  | cons line rest ih =>
      rw [unlines_cons, byLine_newline, ih, List.flatMap_cons, List.append_assoc]

/-- Lines with a line end between any two, between a beginning and an end. -/
theorem byLine_intercalate (front back line last : String) (rest : List String) :
    byLine read (front ++ "\n".intercalate (line :: (rest ++ [last])) ++ back) =
      byLine read (front ++ line) ++ rest.flatMap (byLine read) ++ byLine read (last ++ back) := by
  induction rest generalizing front line with
  | nil =>
      rw [List.nil_append, String.intercalate_cons_cons, String.intercalate_singleton, ← String.append_assoc,
        ← String.append_assoc, String.append_assoc, byLine_newline, List.flatMap_nil, List.append_nil]
  | cons next more ih =>
      have hih := ih "" next
      rw [String.empty_append, String.empty_append] at hih
      rw [List.cons_append, String.intercalate_cons_cons, ← String.append_assoc, ← String.append_assoc,
        String.append_assoc, byLine_newline, hih, List.flatMap_cons, List.append_assoc, List.append_assoc,
        List.append_assoc]

/-- One line is read as it is. -/
theorem byLine_line {line : String} (h : OneLine line) : byLine read line = read line.toList := by
  rw [byLine, linesFrom_single h, List.nil_append, List.flatMap_cons, List.flatMap_nil, List.append_nil]

end Reading

end RouteScaffold.RoutingModule
