import RouteScaffold.Proofs.RoutingModule.Lines

/-!
# The tokens of a script

The lines of a script as words, quoted texts, marks and comments. A line is read by a machine with one step for each
character (`Mode.step`), so that what is read in the middle of a line does not depend on how it began; no token goes
beyond its line. Main statements: a word ends at the first other character (`tokensFrom_word`), and a quoted text is
read as the text that was quoted, whatever its characters (`tokensFrom_quote`).
-/

namespace RouteScaffold.Script

/-! ## 1. The machine -/

/-- A token of a script. -/
inductive Token where
  | word (name : String)
  /-- A quoted text, decoded. -/
  | text (value : String)
  /-- A character that is no part of another token. -/
  | mark (c : Char)
  /-- A comment up to the end of the line. -/
  | comment (text : String)
  /-- A text that does not end on its line, or an escape that stands for no character. -/
  | broken
  deriving DecidableEq, Repr

/-- What is being read, with the characters read already. -/
inductive Mode where
  | between
  | word (chars : List Char)
  /-- Behind a slash, which may begin a comment. -/
  | slash
  | comment (chars : List Char)
  | text (chars : List Char)
  /-- In a text behind a backslash. -/
  | escape (chars : List Char)
  /-- In a text within the number of a character, of which `left + 1` digits are to come. -/
  | number (chars : List Char) (left value : Nat)
  | broken
  deriving DecidableEq, Repr

/-- Characters that only part tokens. -/
def isSpace (c : Char) : Bool := c == ' ' || c == '\t' || c == '\r'

/-- The character that stands behind a backslash for another one. -/
def escaped? (c : Char) : Option Char :=
  if c = 'b' then some '\x08'
  else if c = 't' then some '\t'
  else if c = 'n' then some '\n'
  else if c = 'v' then some '\x0b'
  else if c = 'f' then some '\x0c'
  else if c = 'r' then some '\r'
  else if c = 'x' ∨ c = '\r' ∨ c.isDigit then none
  else some c

/-- The value of a hexadecimal digit. -/
def hexValue? (c : Char) : Option Nat :=
  if c.isDigit then some (c.toNat - 48)
  else if 'a' ≤ c ∧ c ≤ 'f' then some (c.toNat - 87)
  else if 'A' ≤ c ∧ c ≤ 'F' then some (c.toNat - 55)
  else none

namespace Mode

/-- The tokens that a character outside of all tokens completes, and what is read behind it. -/
def start (c : Char) : List Token × Mode :=
  if isSpace c then ([], .between)
  else if c = '"' then ([], .text [])
  else if c = '/' then ([], .slash)
  else if Name.isIdentifierRest c then ([], .word [c])
  else ([.mark c], .between)

/-- What is read behind a digit of the number of a character: the next one, or the text with the character. -/
def digits (chars : List Char) : Nat → Nat → Mode
  | left + 1, value => .number chars left value
  | 0, value => if value.isValidChar then .text (chars ++ [Char.ofNat value]) else .broken

/-- The tokens that a character completes, and what is read behind it. -/
def step : Mode → Char → List Token × Mode
  | .between, c => start c
  | .word chars, c =>
    if Name.isIdentifierRest c then ([], .word (chars ++ [c]))
    else (.word (String.ofList chars) :: (start c).1, (start c).2)
  | .slash, c => if c = '/' then ([], .comment []) else (.mark '/' :: (start c).1, (start c).2)
  | .comment chars, c => ([], .comment (chars ++ [c]))
  | .text chars, c =>
    if c = '"' then ([.text (String.ofList chars)], .between)
    else if c = '\\' then ([], .escape chars)
    else if c = '\r' then ([], .broken)
    else ([], .text (chars ++ [c]))
  | .escape chars, c =>
    if c = 'u' then ([], .number chars 3 0)
    else match escaped? c with
      | some d => ([], .text (chars ++ [d]))
      | none => ([], .broken)
  | .number chars left value, c =>
    match hexValue? c with
    | some digit => ([], digits chars left (value * 16 + digit))
    | none => ([], .broken)
  | .broken, _ => ([], .broken)

/-- The tokens that the end of the line completes. -/
def finish : Mode → List Token
  | .between => []
  | .word chars => [.word (String.ofList chars)]
  | .slash => [.mark '/']
  | .comment chars => [.comment (String.ofList chars)]
  | .text _ | .escape _ | .number _ _ _ | .broken => [.broken]

end Mode

/-- The tokens of the rest of a line. -/
def tokensFrom : Mode → List Char → List Token
  | mode, [] => mode.finish
  | mode, c :: rest => (mode.step c).1 ++ tokensFrom (mode.step c).2 rest

/-- The tokens of a line. -/
def lineTokens (line : List Char) : List Token := tokensFrom .between line

/-- The tokens of a script. -/
def tokens (text : String) : List Token := RoutingModule.byLine lineTokens text

/-- The tokens of lines are those of each line. -/
theorem tokens_unlines (lines : List String) : tokens (Text.unlines lines) = lines.flatMap tokens :=
  (RoutingModule.byLine_unlines lineTokens lines).trans (List.append_nil _)

/-! ## 2. Words and marks -/

theorem tokensFrom_space (rest : List Char) : tokensFrom .between (' ' :: rest) = tokensFrom .between rest := rfl

/-- Blanks at the margin are no tokens. -/
theorem tokensFrom_indent (depth : Nat) (rest : List Char) :
    tokensFrom .between ((String.join (List.replicate depth "  ")).toList ++ rest) = tokensFrom .between rest := by
  induction depth with
  | zero => rfl
  | succ depth ih =>
      have htwo : ("  ").toList = [' ', ' '] := rfl
      rw [List.replicate_succ, String.join_cons, String.toList_append, htwo, List.append_assoc]
      exact ih

/-- Characters that are only gathered are gathered one after the other. -/
theorem tokensFrom_gather (mode : List Char → Mode) {chars : List Char}
    (h : ∀ c ∈ chars, ∀ before, (mode before).step c = ([], mode (before ++ [c]))) (before rest : List Char) :
    tokensFrom (mode before) (chars ++ rest) = tokensFrom (mode (before ++ chars)) rest := by
  induction chars generalizing before with
  | nil => rw [List.nil_append, List.append_nil]
  | cons c chars ih =>
      rw [List.forall_mem_cons] at h
      rw [List.cons_append, tokensFrom, h.1 before]
      show tokensFrom (mode (before ++ [c])) (chars ++ rest) = _
      rw [ih h.2, List.append_assoc, List.singleton_append]

/-- **A word ends at the first other character.** -/
theorem tokensFrom_word {name : String} (h : Name.Fragment name) {c : Char} (hc : Name.isIdentifierRest c = false)
    (rest : List Char) : tokensFrom .between (name.toList ++ c :: rest) =
      .word name :: tokensFrom .between (c :: rest) := by
  obtain ⟨d, ds, hd, hstart, hfollow⟩ := h
  have hstart' := (Name.isIdentifierRest_iff d).mpr (.inl hstart)
  have hc' : ¬Name.isIdentifierRest c = true := by
    rw [hc]
    exact Bool.false_ne_true
  -- What begins a word is neither a blank nor a quote nor a slash.
  have hother : ∀ e : Char, Name.isIdentifierRest e = false → d ≠ e := by
    rintro e he rfl
    rw [hstart'] at he
    cases he
  have hbegin : Mode.start d = ([], .word [d]) := by
    have hspace : isSpace d = false := by
      simp [isSpace, hother ' ' (by decide), hother '\t' (by decide), hother '\r' (by decide)]
    rw [Mode.start, hspace, if_neg Bool.false_ne_true, if_neg (hother '"' (by decide)),
      if_neg (hother '/' (by decide)), if_pos hstart']
  have hname : String.ofList (d :: ds) = name := by
    rw [← hd, String.ofList_toList]
  have hgather : ∀ e ∈ ds, ∀ before, (Mode.word before).step e = ([], .word (before ++ [e])) := fun e he before =>
    if_pos ((Name.isIdentifierRest_iff e).mpr (hfollow e he))
  rw [hd, List.cons_append, tokensFrom, Mode.step, hbegin]
  show tokensFrom (.word [d]) (ds ++ c :: rest) = _
  rw [tokensFrom_gather .word hgather, List.singleton_append, tokensFrom, Mode.step, if_neg hc', hname]
  rfl

/-! ## 3. Texts -/

theorem hexValue?_hexDigit : ∀ n < 16, hexValue? (Text.hexDigit n) = some n := by decide

/-- **What stands for a character between quotes is read as the character.** -/
theorem tokensFrom_escape (chars : List Char) (c : Char) (rest : List Char) :
    tokensFrom (.text chars) (Text.escape c ++ rest) = tokensFrom (.text (chars ++ [c])) rest := by
  have hcode : ∀ {d : Char}, c.toNat = d.toNat → c = d := fun h => Char.toNat_inj.mp h
  unfold Text.escape
  split
  · next h => subst h; rfl
  split
  · next h => subst h; rfl
  split
  · next h => obtain rfl := hcode (d := '\x08') h; rfl
  split
  · next h => obtain rfl := hcode (d := '\t') h; rfl
  split
  · next h => obtain rfl := hcode (d := '\n') h; rfl
  split
  · next h => obtain rfl := hcode (d := '\x0c') h; rfl
  split
  · next h => obtain rfl := hcode (d := '\r') h; rfl
  split
  · next hlow =>
    have hhigh := hexValue?_hexDigit (c.toNat / 16) (by omega)
    have hend := hexValue?_hexDigit (c.toNat % 16) (by omega)
    have hvalid : c.toNat.isValidChar := c.valid
    have hvalue : (0 * 16 + c.toNat / 16) * 16 + c.toNat % 16 = c.toNat := by omega
    show tokensFrom (.number chars 1 0) (Text.hexDigit _ :: Text.hexDigit _ :: rest) = _
    rw [tokensFrom, Mode.step, hhigh]
    show tokensFrom (.number chars 0 (0 * 16 + c.toNat / 16)) (Text.hexDigit _ :: rest) = _
    rw [tokensFrom, Mode.step, hend]
    show tokensFrom (Mode.digits chars 0 ((0 * 16 + c.toNat / 16) * 16 + c.toNat % 16)) rest = _
    rw [hvalue, Mode.digits, if_pos hvalid, Char.ofNat_toNat]
  · next hquote hslash _ _ _ _ hreturn _ =>
    have hr : c ≠ '\r' := fun h => hreturn (h ▸ rfl)
    rw [List.singleton_append, tokensFrom, Mode.step, if_neg hquote, if_neg hslash, if_neg hr]
    rfl

/-- **A quoted text is read as the text that was quoted.** -/
theorem tokensFrom_quote (text : String) (rest : List Char) :
    tokensFrom .between ((Text.quote text).toList ++ rest) = .text text :: tokensFrom .between rest := by
  have hbody : ∀ (chars before : List Char), tokensFrom (.text before) (chars.flatMap Text.escape ++ '"' :: rest) =
      .text (String.ofList (before ++ chars)) :: tokensFrom .between rest := by
    intro chars
    induction chars with
    | nil =>
        intro before
        rw [List.append_nil]
        rfl
    | cons c more ih =>
        intro before
        rw [List.flatMap_cons, List.append_assoc, tokensFrom_escape, ih, List.append_assoc, List.singleton_append]
  rw [Text.quote, Text.quoteChars, String.toList_ofList, List.cons_append, List.append_assoc, List.singleton_append]
  refine (hbody text.toList []).trans ?_
  rw [List.nil_append, String.ofList_toList]

/-- A plain text between quotes is read as it is. -/
theorem tokensFrom_plain {text : String} (h : RoutingModule.Plain text) (rest : List Char) :
    tokensFrom .between ('"' :: (text.toList ++ '"' :: rest)) = .text text :: tokensFrom .between rest := by
  have hgather : ∀ c ∈ text.toList, ∀ before, (Mode.text before).step c = ([], .text (before ++ [c])) := by
    intro c hc before
    obtain ⟨hquote, hslash, -, hreturn⟩ := h c hc
    rw [Mode.step, if_neg hquote, if_neg hslash, if_neg hreturn]
  refine (tokensFrom_gather .text hgather [] ('"' :: rest)).trans ?_
  show [Token.text (String.ofList text.toList)] ++ _ = _
  rw [String.ofList_toList]
  rfl

/-! ## 4. Comments -/

/-- A comment takes the rest of the line. -/
theorem tokensFrom_comment (text : String) :
    tokensFrom .between ('/' :: '/' :: text.toList) = [.comment text] := by
  have hgather : ∀ c ∈ text.toList, ∀ before, (Mode.comment before).step c = ([], .comment (before ++ [c])) :=
    fun _ _ _ => rfl
  have hall := tokensFrom_gather .comment hgather [] []
  rw [List.append_nil] at hall
  refine hall.trans ?_
  show [Token.comment (String.ofList text.toList)] = _
  rw [String.ofList_toList]

end RouteScaffold.Script
