import Mathlib.Data.List.DropRight
import RouteScaffold.Proofs.Script.StringLiteral

/-!
# Children of an element

What a script takes the source between two tags of an element for (`children?`): texts, of which only what is shown is
kept (`shown`), and expressions in braces, of which only string literals are read. What is no child or would have to be
interpreted is not read at all: other elements, other expressions, references and stray brackets.

* `literal?_quote`: a quoted text is read as the text;
* `codeUnits_inj`: a text is known by its units;
* `shown_line`: of a text without line breaks and tabs all is shown;
* `children?_text`, `children?_quote`: such a text between two tags is one child, and so is a quoted text in braces.
-/

namespace RouteScaffold.Script

/-! ## 1. Units -/

/-- **Texts that begin with the same units begin with the same character.** -/
theorem unitsOf_append_inj {c d : Char} {a b : List Nat} (h : unitsOf c.toNat ++ a = unitsOf d.toNat ++ b) :
    c = d ∧ a = b := by
  -- The first of two units is none of a character that has one unit.
  have hvalid : ∀ e : Char, e.toNat < 0xD800 ∨ 0xDFFF < e.toNat ∧ e.toNat < 0x110000 := fun e => e.valid
  have hc := hvalid c
  have hd := hvalid d
  unfold unitsOf at h
  split at h <;> split at h
  · obtain ⟨hcode, hrest⟩ := List.cons.inj h
    exact ⟨Char.toNat_inj.mp hcode, hrest⟩
  · obtain ⟨hcode, -⟩ := List.cons.inj h
    omega
  · obtain ⟨hcode, -⟩ := List.cons.inj h
    omega
  · obtain ⟨hhigh, htail⟩ := List.cons.inj h
    obtain ⟨hlow, hrest⟩ := List.cons.inj htail
    have hcode : c.toNat = d.toNat := by omega
    exact ⟨Char.toNat_inj.mp hcode, hrest⟩

/-- **A text is known by its units.** -/
theorem codeUnits_inj {a b : List Char} : codeUnits a = codeUnits b ↔ a = b := by
  refine ⟨fun h => ?_, congrArg codeUnits⟩
  have hne : ∀ (c : Char) (rest : List Char), codeUnits (c :: rest) ≠ codeUnits [] := by
    intro c rest he
    have hlength := congrArg List.length he
    have hpos := (length_unitsOf c.toNat).1
    rw [length_codeUnits_cons] at hlength
    simp only [codeUnits, List.flatMap_nil, List.length_nil] at hlength
    omega
  induction a generalizing b with
  | nil =>
      cases b with
      | nil => rfl
      | cons d rest => exact absurd h.symm (hne d rest)
  | cons c more ih =>
      cases b with
      | nil => exact absurd h (hne c more)
      | cons d rest =>
          obtain ⟨rfl, htail⟩ := unitsOf_append_inj h
          rw [ih htail]

/-! ## 2. Quoted texts -/

section Steps

variable {mode : Reading} {c : Char} (next : Reading)

theorem readLiteral_gives {units : List Nat} (h : mode.step c = .gives units next) (rest : List Char) :
    readLiteral mode (c :: rest) = (readLiteral next rest).map fun (value, back) => (units ++ value, back) := by
  rw [readLiteral, h]

/-- A character that gives nothing only changes what is being read. -/
theorem readLiteral_silent (h : mode.step c = .gives [] next) (rest : List Char) :
    readLiteral mode (c :: rest) = readLiteral next rest :=
  (readLiteral_gives next h rest).trans (congrFun Option.map_id _)

end Steps

/-- The number of a character is read digit by digit. -/
theorem readLiteral_number {c : Char} (h : c.toNat < 0x20) (rest : List Char) :
    readLiteral .text
        ('\\' :: 'u' :: '0' :: '0' :: Text.hexDigit (c.toNat / 16) :: Text.hexDigit (c.toNat % 16) :: rest) =
      (readLiteral .text rest).map fun (value, back) => (unitsOf c.toNat ++ value, back) := by
  have hone : unitsOf c.toNat = [c.toNat] := if_pos (by omega)
  have hvalue : (0 * 16 + c.toNat / 16) * 16 + c.toNat % 16 = c.toNat := by omega
  have hdigit := hexValue?_hexDigit (c.toNat / 16) (by omega)
  have hdigit' := hexValue?_hexDigit (c.toNat % 16) (by omega)
  have hhigh : (Reading.hex 1 0).step (Text.hexDigit (c.toNat / 16)) =
      .gives [] (.hex 0 (0 * 16 + c.toNat / 16)) := by
    simp only [Reading.step, Reading.digitStep, hdigit]
  have hlow : (Reading.hex 0 (0 * 16 + c.toNat / 16)).step (Text.hexDigit (c.toNat % 16)) =
      .gives (unitsOf c.toNat) .text := by
    simp only [Reading.step, Reading.digitStep, hdigit', hvalue, hone]
  rw [readLiteral_silent .escape rfl, readLiteral_silent .unicode rfl, readLiteral_silent (.hex 2 0) rfl,
    readLiteral_silent (.hex 1 0) rfl, readLiteral_silent _ hhigh, readLiteral_gives _ hlow]

/-- **What stands for a character between quotes is read as the units of the character.** -/
theorem readLiteral_escape (c : Char) (rest : List Char) : readLiteral .text (Text.escape c ++ rest) =
    (readLiteral .text rest).map fun (value, back) => (unitsOf c.toNat ++ value, back) := by
  have hcode : ∀ {d : Char}, c.toNat = d.toNat → c = d := fun h => Char.toNat_inj.mp h
  have hshort : ∀ {d : Char} {units : List Nat}, Reading.escape.step d = .gives units .text →
      readLiteral .text ('\\' :: d :: rest) =
        (readLiteral .text rest).map fun (value, back) => (units ++ value, back) :=
    fun h => (readLiteral_silent .escape rfl _).trans (readLiteral_gives .text h rest)
  unfold Text.escape
  split
  · next h => subst h; exact hshort rfl
  split
  · next h => subst h; exact hshort rfl
  split
  · next h => obtain rfl := hcode (d := '\x08') h; exact hshort rfl
  split
  · next h => obtain rfl := hcode (d := '\t') h; exact hshort rfl
  split
  · next h => obtain rfl := hcode (d := '\n') h; exact hshort rfl
  split
  · next h => obtain rfl := hcode (d := '\x0c') h; exact hshort rfl
  split
  · next h => obtain rfl := hcode (d := '\r') h; exact hshort rfl
  split
  · next hlow => exact readLiteral_number hlow rest
  · next hquote hslash _ _ hline _ hreturn _ =>
    exact readLiteral_plain ⟨hquote, hslash, fun h => hline (h ▸ rfl), fun h => hreturn (h ▸ rfl)⟩ rest

/-- **A quoted text is read as the text.** -/
theorem literal?_quote (text : String) (rest : List Char) :
    literal? ((Text.quote text).toList ++ rest) = some (codeUnits text.toList, rest) := by
  have hbody : ∀ chars : List Char, readLiteral .text (chars.flatMap Text.escape ++ '"' :: rest) =
      some (codeUnits chars, rest) := by
    intro chars
    induction chars with
    | nil => rfl
    | cons c more ih =>
        rw [List.flatMap_cons, List.append_assoc, readLiteral_escape, ih]
        rfl
  rw [Text.quote, Text.quoteChars, String.toList_ofList, List.cons_append, List.append_assoc, List.singleton_append]
  exact hbody text.toList

theorem length_of_readLiteral {mode : Reading} {source back : List Char} {value : List Nat}
    (h : readLiteral mode source = some (value, back)) : back.length < source.length := by
  induction source generalizing mode value with
  | nil => cases h
  | cons c rest ih =>
      rcases readLiteral_cons h with ⟨-, -, rfl⟩ | ⟨given, next, more, -, hm, -⟩
      · exact Nat.lt_succ_self _
      · exact Nat.lt_succ_of_lt (ih hm)

/-- Behind a literal less stands than from its quote on. -/
theorem length_of_literal? {source back : List Char} {value : List Nat}
    (h : literal? source = some (value, back)) : back.length < source.length := by
  unfold literal? at h
  split at h
  · exact Nat.lt_succ_of_lt (length_of_readLiteral h)
  · cases h

/-! ## 3. What is shown of a text -/

/-- All line breaks as one character, and tabs as spaces. -/
def normalised (c : Char) : Char := if c = '\r' then '\n' else if c = '\t' then ' ' else c

/-- A line without the spaces at its front. -/
def trimFront (line : List Char) : List Char := line.dropWhile (· == ' ')

/-- A line without the spaces at its back. -/
def trimBack (line : List Char) : List Char := line.rdropWhile (· == ' ')

/-- Lines behind a line break: no spaces at their front, and none at their back if there is a line break again. -/
def trimBehind : List (List Char) → List (List Char)
  | [] => []
  | [last] => [trimFront last]
  | line :: next :: rest => trimBack (trimFront line) :: trimBehind (next :: rest)

/-- Lines without the spaces next to a line break. -/
def trimLines : List (List Char) → List (List Char)
  | [] => []
  | [line] => [line]
  | first :: next :: rest => trimBack first :: trimBehind (next :: rest)

/-- What is shown of a text among the children of an element: its lines without the spaces next to line breaks, those
    that are left with a space between them. -/
def shown (chars : List Char) : List Char :=
  [' '].intercalate ((trimLines (RoutingModule.linesFrom [] (chars.map normalised))).filter (· ≠ []))

example : shown "\n  Users\tand \r\n\n  roles ".toList = "Users and roles ".toList := by decide

/-- **Of a text without line breaks and tabs all is shown.** -/
theorem shown_line {chars : List Char} (h : ∀ c ∈ chars, c ≠ '\n' ∧ c ≠ '\r' ∧ c ≠ '\t') : shown chars = chars := by
  have hmap : chars.map normalised = chars := by
    refine (List.map_congr_left fun c hc => ?_).trans (List.map_id chars)
    obtain ⟨-, hreturn, htab⟩ := h c hc
    rw [normalised, if_neg hreturn, if_neg htab]
    rfl
  have hone : '\n' ∉ chars := fun hm => (h '\n' hm).1 rfl
  rw [shown, hmap, RoutingModule.linesFrom_single hone, List.nil_append, trimLines]
  cases chars with
  | nil => rfl
  | cons c rest => exact List.append_nil _

/-! ## 4. Children -/

/-- A child of an element. -/
inductive Content where
  /-- A text, as it is shown. -/
  | text (chars : List Char)
  /-- An expression in braces that is a string literal, by its value. -/
  | expression (units : List Nat)
  deriving DecidableEq, Repr

/-- The units of what a child shows. -/
def Content.units : Content → List Nat
  | .text chars => codeUnits chars
  | .expression units => units

/-- May the character stand in a text as itself? The others begin or end something, or are no text. -/
def isTextChar (c : Char) : Bool := c != '{' && c != '}' && c != '<' && c != '>' && c != '&'

/-- The child that a text is; none if nothing of it is shown. -/
def textChild (chars : List Char) : List Content := if shown chars = [] then [] else [.text (shown chars)]

/-- The children of an element from their source on, and what stands behind them: the closing tag. -/
def children? (source : List Char) : Option (List Content × List Char) :=
  match source with
  | [] => none
  | c :: rest =>
    if c = '<' then
      if rest.head? = some '/' then some ([], c :: rest) else none
    else if c = '{' then
      match found : literal? rest with
      | some (units, '}' :: back) =>
        have := length_of_literal? found
        (children? back).map fun (more, last) => (.expression units :: more, last)
      | _ => none
    else if isTextChar c then
      have := (List.dropWhile_suffix isTextChar (l := rest)).length_le
      (children? (rest.dropWhile isTextChar)).map fun (more, last) =>
        (textChild (c :: rest.takeWhile isTextChar) ++ more, last)
    else none
termination_by source.length
decreasing_by
  all_goals simp only [List.length_cons] at *
  all_goals omega

theorem children?_close (rest : List Char) : children? ('<' :: '/' :: rest) = some ([], '<' :: '/' :: rest) := by
  rw [children?, if_pos rfl, List.head?_cons, if_pos rfl]

/-- **A text without line breaks and tabs between two tags is one child.** -/
theorem children?_text {chars : List Char} (hne : chars ≠ []) (ht : ∀ c ∈ chars, isTextChar c = true)
    (hl : ∀ c ∈ chars, c ≠ '\n' ∧ c ≠ '\r' ∧ c ≠ '\t') (rest : List Char) :
    children? (chars ++ '<' :: '/' :: rest) = some ([.text chars], '<' :: '/' :: rest) := by
  obtain ⟨c, more, rfl⟩ := List.exists_cons_of_ne_nil hne
  have hbracket : isTextChar '<' = false := rfl
  have htag : ¬(isTextChar '<' = true) := Bool.not_eq_true _ ▸ hbracket
  obtain ⟨hc, hmore⟩ := List.forall_mem_cons.mp ht
  have hopen : c ≠ '<' := fun he => htag (he ▸ hc)
  have hbrace : c ≠ '{' := by
    rintro rfl
    cases hc
  have hback : (more ++ '<' :: '/' :: rest).dropWhile isTextChar = '<' :: '/' :: rest := by
    rw [List.dropWhile_append_of_pos hmore, List.dropWhile_cons_of_neg htag]
  have hfront : (more ++ '<' :: '/' :: rest).takeWhile isTextChar = more := by
    rw [List.takeWhile_append_of_pos hmore, List.takeWhile_cons_of_neg htag, List.append_nil]
  have hchild : textChild (c :: more) = [.text (c :: more)] := by
    rw [textChild, shown_line hl, if_neg hne]
  rw [List.cons_append, children?, if_neg hopen, if_neg hbrace, if_pos hc, hback, hfront, hchild, children?_close]
  rfl

/-- **A quoted text in braces between two tags is one child**, whose value is the text. -/
theorem children?_quote (text : String) (rest : List Char) :
    children? ('{' :: ((Text.quote text).toList ++ '}' :: '<' :: '/' :: rest)) =
      some ([.expression (codeUnits text.toList)], '<' :: '/' :: rest) := by
  rw [children?, if_neg (by decide), if_pos rfl]
  have hliteral := literal?_quote text ('}' :: '<' :: '/' :: rest)
  split
  · next units back found =>
    rw [hliteral] at found
    cases found
    rw [children?_close]
    rfl
  · next hother => exact absurd hliteral (hother _ _)

end RouteScaffold.Script
