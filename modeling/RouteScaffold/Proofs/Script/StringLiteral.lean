import RouteScaffold.Proofs.Script.Token

/-!
# String literals of a script

What a script takes a double-quoted text in its source for (`literal?`): the units of 16 bits that its characters and
escapes stand for, up to the quote that ends it. No escape stands for more units than it is written with
(`length_of_readLiteral`). So of the texts that are put between quotes as they are, exactly the plain ones are read as
themselves (`literal?_iff`).
-/

namespace RouteScaffold.Script

/-! ## 1. Reading -/

/-- The units of 16 bits that stand for a code point. -/
def unitsOf (code : Nat) : List Nat :=
  if code < 0x10000 then [code] else [0xD800 + (code - 0x10000) / 0x400, 0xDC00 + (code - 0x10000) % 0x400]

/-- The units of characters. -/
def codeUnits (chars : List Char) : List Nat := chars.flatMap fun c => unitsOf c.toNat

/-- What is being read of a literal. -/
inductive Reading where
  | text
  /-- Behind a backslash. -/
  | escape
  /-- Behind an escaped zero, which no digit may follow. -/
  | zero
  /-- Behind an escaped carriage return, which a line feed may follow. -/
  | continued
  /-- Within a number of fixed length, of which `left + 1` digits are to come. -/
  | hex (left value : Nat)
  /-- Behind an escaped `u`. -/
  | unicode
  /-- Within a number in braces, once it has a digit with its value. -/
  | code (value : Option Nat)
  deriving DecidableEq, Repr

/-- What a character of a literal does. -/
inductive Step where
  | gives (units : List Nat) (next : Reading)
  | ends
  | breaks
  deriving DecidableEq, Repr

namespace Reading

/-- What a character does that is not escaped. -/
def textStep (c : Char) : Step :=
  if c = '"' then .ends
  else if c = '\\' then .gives [] .escape
  else if c = '\n' ∨ c = '\r' then .breaks
  else .gives (unitsOf c.toNat) .text

/-- What a digit of a number of fixed length does. -/
def digitStep (left value : Nat) (c : Char) : Step :=
  match hexValue? c, left with
  | some digit, 0 => .gives [value * 16 + digit] .text
  | some digit, left + 1 => .gives [] (.hex left (value * 16 + digit))
  | none, _ => .breaks

/-- What a character of a number in braces does. -/
def codeStep (value : Option Nat) (c : Char) : Step :=
  if c = '}' then
    match value with
    | some number => if number < 0x110000 then .gives (unitsOf number) .text else .breaks
    | none => .breaks
  else
    match hexValue? c with
    | some digit => .gives [] (.code (some (value.getD 0 * 16 + digit)))
    | none => .breaks

/-- What a character behind a backslash does. -/
def escapeStep (c : Char) : Step :=
  if c = 'x' then .gives [] (.hex 1 0)
  else if c = 'u' then .gives [] .unicode
  else if c = '0' then .gives [0] .zero
  else if c = '\r' then .gives [] .continued
  else if c = '\n' ∨ c = '\u2028' ∨ c = '\u2029' then .gives [] .text
  else match escaped? c with
    | some d => .gives (unitsOf d.toNat) .text
    | none => .breaks

/-- What a character does. -/
def step : Reading → Char → Step
  | .text, c => textStep c
  | .escape, c => escapeStep c
  | .zero, c => if c.isDigit then .breaks else textStep c
  | .continued, c => if c = '\n' then .gives [] .text else textStep c
  | .hex left value, c => digitStep left value c
  | .unicode, c => if c = '{' then .gives [] (.code none) else digitStep 3 0 c
  | .code value, c => codeStep value c

end Reading

/-- Reads on within a literal: the units up to its end, and what stands behind it. -/
def readLiteral : Reading → List Char → Option (List Nat × List Char)
  | _, [] => none
  | mode, c :: rest =>
    match mode.step c with
    | .gives units next => (readLiteral next rest).map fun (value, back) => (units ++ value, back)
    | .ends => some ([], rest)
    | .breaks => none

/-- The literal that a source begins with, and what stands behind it. -/
def literal? : List Char → Option (List Nat × List Char)
  | '"' :: rest => readLiteral .text rest
  | _ => none

/-! ## 2. One character -/

theorem length_codeUnits_cons (c : Char) (rest : List Char) :
    (codeUnits (c :: rest)).length = (unitsOf c.toNat).length + (codeUnits rest).length := by
  rw [codeUnits, List.flatMap_cons, List.length_append]
  rfl

theorem length_codeUnits_append (chars more : List Char) :
    (codeUnits (chars ++ more)).length = (codeUnits chars).length + (codeUnits more).length := by
  rw [codeUnits, List.flatMap_append, List.length_append]
  rfl

theorem length_unitsOf (code : Nat) : 1 ≤ (unitsOf code).length ∧ (unitsOf code).length ≤ 2 := by
  unfold unitsOf
  by_cases h : code < 0x10000
  · rw [if_pos h]
    exact ⟨Nat.le_refl 1, Nat.le_succ 1⟩
  · rw [if_neg h]
    exact ⟨Nat.le_succ 1, Nat.le_refl 2⟩

/-- An escaped character stands for itself or for a character of one unit. -/
theorem length_escaped {c d : Char} (h : escaped? c = some d) :
    (unitsOf d.toNat).length ≤ (unitsOf c.toNat).length := by
  have hcases : d = c ∨ d ∈ ['\x08', '\t', '\n', '\x0b', '\x0c', '\r'] := by
    simp only [escaped?] at h
    grind
  rcases hcases with rfl | hd
  · exact Nat.le_refl _
  · have hsmall : d.toNat < 0x10000 := by
      simp only [List.mem_cons, List.not_mem_nil, or_false] at hd
      rcases hd with rfl | rfl | rfl | rfl | rfl | rfl <;> decide
    rw [unitsOf, if_pos hsmall]
    exact (length_unitsOf c.toNat).1

/-- How many more units may be given than the characters ahead are written with. -/
def Reading.credit : Reading → Nat
  | .code _ => 1
  | _ => 0

namespace Reading

variable {next : Reading} {c : Char} {given : List Nat}

theorem length_textStep (h : textStep c = .gives given next) :
    given.length + next.credit ≤ (unitsOf c.toNat).length := by
  unfold textStep at h
  split at h
  · cases h
  split at h
  · cases h
    exact Nat.zero_le _
  split at h
  · cases h
  · cases h
    exact Nat.le_refl _

theorem length_digitStep {left value : Nat} (h : digitStep left value c = .gives given next) :
    given.length + next.credit ≤ 1 := by
  unfold digitStep at h
  split at h
  · cases h
    exact Nat.le_refl 1
  · cases h
    exact Nat.zero_le 1
  · cases h

theorem length_codeStep {value : Option Nat} (h : codeStep value c = .gives given next) :
    given.length + next.credit ≤ 2 := by
  unfold codeStep at h
  split at h
  · split at h
    · split at h
      · cases h
        exact (length_unitsOf _).2
      · cases h
    · cases h
  · split at h
    · cases h
      exact Nat.le_succ 1
    · cases h

theorem length_escapeStep (h : escapeStep c = .gives given next) :
    given.length + next.credit ≤ (unitsOf c.toNat).length := by
  have hpos := (length_unitsOf c.toNat).1
  unfold escapeStep at h
  split at h
  · cases h
    exact Nat.zero_le _
  split at h
  · cases h
    exact Nat.zero_le _
  split at h
  · cases h
    exact hpos
  split at h
  · cases h
    exact Nat.zero_le _
  split at h
  · cases h
    exact Nat.zero_le _
  split at h
  · next hd =>
    cases h
    exact length_escaped hd
  · cases h

/-- **What a character gives is paid for**: by the characters that it is written with, in braces also by the brace. -/
theorem length_step {mode : Reading} (h : mode.step c = .gives given next) :
    given.length + next.credit ≤ mode.credit + (unitsOf c.toNat).length := by
  have hpos := (length_unitsOf c.toNat).1
  cases mode with
  | text =>
      have := length_textStep h
      exact Nat.le_add_left_of_le this
  | escape =>
      have := length_escapeStep h
      exact Nat.le_add_left_of_le this
  | zero =>
      rw [step] at h
      split at h
      · cases h
      · exact Nat.le_add_left_of_le (length_textStep h)
  | continued =>
      rw [step] at h
      split at h
      · cases h
        exact Nat.zero_le _
      · exact Nat.le_add_left_of_le (length_textStep h)
  | hex left value =>
      have := length_digitStep h
      omega
  | unicode =>
      rw [step] at h
      split at h
      · cases h
        exact Nat.le_add_left_of_le hpos
      · have := length_digitStep h
        omega
  | code value =>
      have := length_codeStep h
      rw [credit]
      omega

/-- Behind a quote that does not end the literal nothing is open. -/
theorem next_of_quote {mode : Reading} (h : mode.step '"' = .gives given next) : next = .text := by
  cases mode with
  | text => cases h
  | escape =>
      cases h
      rfl
  | zero => cases h
  | continued => cases h
  | hex left value => cases h
  | unicode => cases h
  | code value => cases h

end Reading

/-! ## 3. Literals -/

/-- What is read from a character on ends with it, or is what it gives with what is read behind it. -/
theorem readLiteral_cons {mode : Reading} {c : Char} {rest back : List Char} {value : List Nat}
    (h : readLiteral mode (c :: rest) = some (value, back)) :
    mode.step c = .ends ∧ value = [] ∧ back = rest ∨
      ∃ given next more, mode.step c = .gives given next ∧ readLiteral next rest = some (more, back) ∧
        value = given ++ more := by
  rw [readLiteral] at h
  cases hs : mode.step c with
  | gives given next =>
      rw [hs] at h
      obtain ⟨⟨more, back'⟩, hm, he⟩ := Option.map_eq_some_iff.mp h
      cases he
      exact .inr ⟨given, next, more, rfl, hm, rfl⟩
  | ends =>
      rw [hs] at h
      cases h
      exact .inl ⟨rfl, rfl, rfl⟩
  | breaks =>
      rw [hs] at h
      cases h

/-- **A literal gives no more units than it is written with**, its last quote apart. -/
theorem length_readLiteral {mode : Reading} {source back : List Char} {value : List Nat}
    (h : readLiteral mode source = some (value, back)) :
    value.length + (codeUnits back).length + 1 ≤ mode.credit + (codeUnits source).length := by
  induction source generalizing mode value with
  | nil => cases h
  | cons c rest ih =>
      have hpos := (length_unitsOf c.toNat).1
      have hcons := length_codeUnits_cons c rest
      rcases readLiteral_cons h with ⟨-, rfl, rfl⟩ | ⟨given, next, more, hs, hm, rfl⟩
      · rw [List.length_nil]
        omega
      · have hstep := Reading.length_step hs
        have hmore := ih hm
        rw [List.length_append]
        omega

/-- A literal on a line ends ahead of the line's end, which no backslash escapes. -/
theorem suffix_of_readLiteral {mode : Reading} {chars more back : List Char} {value : List Nat}
    (h : readLiteral mode (chars ++ '"' :: ';' :: '\n' :: more) = some (value, back)) :
    ';' :: '\n' :: more <:+ back := by
  induction chars generalizing mode value with
  | nil =>
      -- A quote that does not end the literal stands in it, and the line ends behind the semicolon.
      have hline : readLiteral .text (';' :: '\n' :: more) = none := rfl
      rcases readLiteral_cons h with ⟨-, -, rfl⟩ | ⟨given, next, more', hs, hm, -⟩
      · exact List.suffix_rfl
      · rw [Reading.next_of_quote hs, hline] at hm
        cases hm
  | cons c rest ih =>
      rcases readLiteral_cons h with ⟨-, -, rfl⟩ | ⟨given, next, more', -, hm, -⟩
      · exact ⟨rest ++ ['"'], List.append_assoc _ _ _⟩
      · exact ih hm

/-- A character that can stand in a literal as it is. -/
def PlainChar (c : Char) : Prop := c ≠ '"' ∧ c ≠ '\\' ∧ c ≠ '\n' ∧ c ≠ '\r'

theorem readLiteral_plain {c : Char} (h : PlainChar c) (rest : List Char) : readLiteral .text (c :: rest) =
    (readLiteral .text rest).map fun (value, back) => (unitsOf c.toNat ++ value, back) := by
  obtain ⟨hquote, hslash, hline, hreturn⟩ := h
  rw [readLiteral, Reading.step, Reading.textStep, if_neg hquote, if_neg hslash,
    if_neg fun he => he.elim hline hreturn]

/-- A literal that is read as the characters in it has only plain ones. -/
theorem plain_of_readLiteral {chars more back : List Char}
    (h : readLiteral .text (chars ++ '"' :: ';' :: '\n' :: more) = some (codeUnits chars, back)) :
    ∀ c ∈ chars, PlainChar c := by
  induction chars with
  | nil => exact fun c hc => by cases hc
  | cons c rest ih =>
      rw [List.cons_append] at h
      have hunits : codeUnits (c :: rest) = unitsOf c.toNat ++ codeUnits rest := rfl
      have hpos := (length_unitsOf c.toNat).1
      have hquote : c ≠ '"' := by
        intro he
        subst he
        cases h
      have hslash : c ≠ '\\' := by
        intro he
        subst he
        -- The escape is written with one unit more than it gives, and what stands behind it with no fewer.
        obtain ⟨⟨value, back'⟩, hread, he⟩ := Option.map_eq_some_iff.mp h
        obtain ⟨hvalue, rfl⟩ := Prod.mk.inj he
        obtain ⟨between, hback⟩ := suffix_of_readLiteral hread
        have hlength := length_readLiteral hread
        have hone : (unitsOf '"'.toNat).length = 1 := rfl
        rw [List.nil_append] at hvalue
        rw [hvalue, hunits, ← hback] at hlength
        simp only [length_codeUnits_append, length_codeUnits_cons, List.length_append, Reading.credit] at hlength
        omega
      have hline : c ≠ '\n' := by
        intro he
        subst he
        cases h
      have hreturn : c ≠ '\r' := by
        intro he
        subst he
        cases h
      have hc : PlainChar c := ⟨hquote, hslash, hline, hreturn⟩
      rw [readLiteral_plain hc] at h
      obtain ⟨⟨value, back'⟩, hread, he⟩ := Option.map_eq_some_iff.mp h
      obtain ⟨hvalue, rfl⟩ := Prod.mk.inj he
      rw [hunits, List.append_cancel_left_eq] at hvalue
      rw [hvalue] at hread
      exact List.forall_mem_cons.mpr ⟨hc, ih hread⟩

/-- **Of the texts between quotes on a line exactly the plain ones are read as themselves**, and what stands behind them
    is left. -/
theorem literal?_iff (text : String) (more back : List Char) :
    literal? ('"' :: (text.toList ++ '"' :: ';' :: '\n' :: more)) = some (codeUnits text.toList, back) ↔
      RoutingModule.Plain text ∧ back = ';' :: '\n' :: more := by
  have hplain : ∀ {chars : List Char}, (∀ c ∈ chars, PlainChar c) →
      readLiteral .text (chars ++ '"' :: ';' :: '\n' :: more) = some (codeUnits chars, ';' :: '\n' :: more) := by
    intro chars h
    induction chars with
    | nil => rfl
    | cons c rest ih =>
        rw [List.forall_mem_cons] at h
        rw [List.cons_append, readLiteral_plain h.1, ih h.2]
        rfl
  show readLiteral .text _ = _ ↔ _
  constructor
  · intro h
    have hall := plain_of_readLiteral h
    have hback := (hplain hall).symm.trans h
    exact ⟨hall, (congrArg Prod.snd (Option.some.inj hback)).symm⟩
  · intro ⟨hall, hback⟩
    rw [hback]
    exact hplain hall

end RouteScaffold.Script
