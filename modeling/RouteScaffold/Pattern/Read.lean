import RouteScaffold.Pattern.Syntax

/-!
# Reading patterns

`Pattern.read?` reads the text of a pattern; a text that is no pattern gives nothing. A reading goes through the
text once and keeps, for each open group, what was read before it (`Frame`). Settings in a group hold to its end.
-/

namespace RouteScaffold.Pattern

/-! ## 1. Settings -/

/-- How the pieces of a pattern are understood. -/
structure Settings where
  ignoreCase : Bool
  /-- `^` and `$` are about lines. -/
  lines : Bool
  /-- The dot stands for a line feed too. -/
  dotAll : Bool
  /-- A line may end with a carriage return. -/
  wideLines : Bool
  /-- Classes are those of Unicode, not of ASCII. -/
  unicode : Bool
  /-- Blanks and comments between the pieces have no meaning. -/
  verbose : Bool
  deriving Inhabited

/-- The settings at the start of a pattern. -/
def Settings.initial : Settings := ⟨false, false, false, false, true, false⟩

/-- The settings with the setting of a letter switched; none for a letter without setting. -/
def Settings.switch (s : Settings) (on : Bool) : Char → Option Settings
  | 'i' => some { s with ignoreCase := on }
  | 'm' => some { s with lines := on }
  | 's' => some { s with dotAll := on }
  | 'U' => some s
  | 'R' => some { s with wideLines := on }
  | 'u' => some { s with unicode := on }
  | 'x' => some { s with verbose := on }
  | _ => none

/-- The text without the blanks and the comments at its front; `comment` says whether it begins in one. -/
def skipBlanks (comment : Bool) : List Char → List Char
  | [] => []
  | c :: rest =>
    if comment then skipBlanks (c != '\n') rest
    else if Text.isBlank c then skipBlanks false rest
    else if c == '#' then skipBlanks true rest
    else c :: rest

/-- The text without what has no meaning at its front. -/
def Settings.skip (s : Settings) (text : List Char) : List Char :=
  if s.verbose then skipBlanks false text else text

/-- The characters that belong to the words. -/
def Settings.word (s : Settings) : CharSet := if s.unicode then .word else .asciiWord

/-- A set as it is meant where case has no meaning. -/
def Settings.fold (s : Settings) (set : CharSet) : CharSet :=
  if !s.ignoreCase then set
  else if s.unicode then .folded set
  else .inter (.folded set) (.codes [(0, 127)])

/-- A set that may stand in a pattern: without Unicode it must not reach beyond ASCII. -/
def Settings.allow? (s : Settings) (set : CharSet) : Option CharSet :=
  if !s.unicode && set.reachesHigh then none else some set

/-- A character that may stand in a pattern. -/
def Settings.literal? (s : Settings) (c : Char) : Option CharSet :=
  if !s.unicode && 127 < c.toNat then none else some (s.fold (.one c))

/-! ## 2. Escapes -/

/-- What an escape stands for. -/
inductive Escape where
  | literal (c : Char)
  | look (l : Look)
  | set (s : CharSet)

/-- The characters with a meaning in patterns. -/
def metaCharacters : List Char :=
  ['\\', '.', '+', '*', '?', '(', ')', '|', '[', ']', '\x7b', '\x7d', '^', '$', '#', '&', '-', '~']

/-- May the character be escaped to stand for itself? -/
def isEscapable (c : Char) : Bool :=
  metaCharacters.contains c || (c.val < 128 && !c.isAlphanum && c != '<' && c != '>')

/-- The value of a hexadecimal digit. -/
def hexValue? (c : Char) : Option Nat :=
  if c.isDigit then some (c.toNat - 48)
  else if 'a' ≤ c ∧ c ≤ 'f' then some (c.toNat - 87)
  else if 'A' ≤ c ∧ c ≤ 'F' then some (c.toNat - 55)
  else none

/-- The character whose code hexadecimal digits write. -/
def hexCharacter? (digits : List Char) : Option Char := do
  if digits.isEmpty then none
  else
    let values ← digits.mapM hexValue?
    let code := values.foldl (fun n d => n * 16 + d) 0
    if code < 0xD800 ∨ (0xDFFF < code ∧ code < 0x110000) then some (Char.ofNat code) else none

/-- Splits a text behind its front up to a character, which is passed over. -/
def upTo? (stop : Char) (text : List Char) : Option (List Char × List Char) :=
  match text.dropWhile (· != stop) with
  | _ :: rest => some (text.takeWhile (· != stop), rest)
  | [] => none

/-- Reads a character by its code: a number of digits, or digits in braces. -/
def readHex? (count : Nat) (text : List Char) : Option (Escape × List Char) := do
  match text with
  | '\x7b' :: rest =>
    let (digits, rest) ← upTo? '\x7d' rest
    pure (.literal (← hexCharacter? digits), rest)
  | _ =>
    if text.length < count then none
    else pure (.literal (← hexCharacter? (text.take count)), text.drop count)

/-- Splits at the first occurrence of a text. -/
def splitAt? (separator : List Char) : List Char → Option (List Char × List Char)
  | [] => none
  | c :: rest =>
    if separator.isPrefixOf (c :: rest) then some ([], (c :: rest).drop separator.length)
    else (splitAt? separator rest).map fun (left, right) => (c :: left, right)

/-- The characters of the property that stands in braces. -/
def propertyOf? (name : List Char) : Option CharSet :=
  match splitAt? ['!', '='] name with
  | some (property, value) => (CharSet.valued? property value).map .compl
  | none =>
    match (splitAt? [':'] name).orElse fun _ => splitAt? ['='] name with
    | some (property, value) => CharSet.valued? property value
    | none => CharSet.property? name

/-- Reads a property of Unicode. -/
def readProperty? (s : Settings) (negated : Bool) (text : List Char) :
    Option (Escape × List Char) := do
  if !s.unicode then none
  else
    let (set, rest) ← match text with
      | '\x7b' :: rest => do
        let (name, rest) ← upTo? '\x7d' rest
        pure (← propertyOf? name, rest)
      | '\\' :: _ => none
      | c :: rest => do pure (← CharSet.category? (String.ofList [c.toLower]), rest)
      | [] => none
    pure (.set (if negated then .compl set else set), rest)

/-- The class of a letter, as of Unicode or of ASCII. -/
def letterClass? (s : Settings) : Char → Option CharSet
  | 'd' => some (if s.unicode then .decimal else .asciiDigit)
  | 's' => some (if s.unicode then .blank else .asciiBlank)
  | 'w' => some s.word
  | 'D' => some (.compl (if s.unicode then .decimal else .asciiDigit))
  | 'S' => some (.compl (if s.unicode then .blank else .asciiBlank))
  | 'W' => some (.compl s.word)
  | _ => none

/-- Reads the name in braces behind a word boundary. A brace that no letter follows begins a repetition. -/
def readBoundary? (s : Settings) (text : List Char) : Option (Escape × List Char) :=
  let isNamePart (c : Char) : Bool := c.isAlpha || c == '-'
  match text with
  | '\x7b' :: rest =>
    let name := (s.skip rest).takeWhile isNamePart
    let rest := (s.skip rest).dropWhile isNamePart
    if name.isEmpty then
      if rest.isEmpty then none else some (.look (.boundary s.word), text)
    else
      match rest with
      | '\x7d' :: rest =>
        let kind := String.ofList name
        if kind = "start" then some (.look (.wordStart s.word), rest)
        else if kind = "end" then some (.look (.wordEnd s.word), rest)
        else if kind = "start-half" then some (.look (.wordStartHalf s.word), rest)
        else if kind = "end-half" then some (.look (.wordEndHalf s.word), rest)
        else none
      | _ => none
  | _ => some (.look (.boundary s.word), text)

/-- Reads what stands behind a backslash. -/
def readEscape? (s : Settings) : List Char → Option (Escape × List Char)
  | [] => none
  | 'x' :: rest => readHex? 2 rest
  | 'u' :: rest => readHex? 4 rest
  | 'U' :: rest => readHex? 8 rest
  | 'p' :: rest => readProperty? s false rest
  | 'P' :: rest => readProperty? s true rest
  | 'a' :: rest => some (.literal '\x07', rest)
  | 'f' :: rest => some (.literal '\x0c', rest)
  | 't' :: rest => some (.literal '\t', rest)
  | 'n' :: rest => some (.literal '\n', rest)
  | 'r' :: rest => some (.literal '\r', rest)
  | 'v' :: rest => some (.literal '\x0b', rest)
  | 'A' :: rest => some (.look .textStart, rest)
  | 'z' :: rest => some (.look .textEnd, rest)
  | 'B' :: rest => some (.look (.noBoundary s.word), rest)
  | '<' :: rest => some (.look (.wordStart s.word), rest)
  | '>' :: rest => some (.look (.wordEnd s.word), rest)
  | 'b' :: rest => readBoundary? s rest
  | c :: rest =>
    match letterClass? s c with
    | some set => some (.set set, rest)
    | none => if isEscapable c then some (.literal c, rest) else none

/-! ## 3. Bracketed sets -/

/-- An operation between sets in brackets. -/
inductive SetOperation where
  | inter
  | diff
  | either

/-- The set that an operation makes of two. -/
def SetOperation.apply : SetOperation → CharSet → CharSet → CharSet
  | inter => .inter
  | diff => .diff
  | either => .either

/-- Reads one item of a set: a character or an escape. -/
def readSetItem? (s : Settings) : List Char → Option (Escape × List Char)
  | [] => none
  | '\\' :: rest => readEscape? s rest
  | c :: rest => some (.literal c, rest)

/-- The set of an item that stands alone. -/
def itemSet? (s : Settings) : Escape → Option CharSet
  | .literal c => if !s.unicode && 127 < c.toNat then none else some (.one c)
  | .set set => some set
  | .look _ => none

/-- The character of an item at the end of a range. -/
def itemLiteral? (s : Settings) : Escape → Option Char
  | .literal c => if !s.unicode && 127 < c.toNat then none else some c
  | _ => none

/-- Reads an item or a range. A dash before the closing bracket or before a dash makes no range. -/
def readSetRange? (s : Settings) (text : List Char) : Option (CharSet × List Char) := do
  let (first, rest) ← readSetItem? s text
  let rest := s.skip rest
  match rest with
  | '-' :: behind =>
    let next := (s.skip behind).head?
    if next = some ']' ∨ next = some '-' then pure (← itemSet? s first, rest)
    else
      let (last, rest) ← readSetItem? s (s.skip behind)
      let first ← itemLiteral? s first
      let last ← itemLiteral? s last
      if first ≤ last then pure (.range first last, rest) else none
  | [] => none
  | rest => pure (← itemSet? s first, rest)

/-- Reads a named class of ASCII in brackets and colons, if the text begins with one. -/
def readNamedClass? (text : List Char) : Option (CharSet × List Char) := do
  match text with
  | '[' :: ':' :: rest =>
    let (name, rest) ← upTo? ':' rest
    match name, rest with
    | '^' :: name, ']' :: rest => pure (.compl (← CharSet.ascii? (String.ofList name)), rest)
    | name, ']' :: rest => pure (← CharSet.ascii? (String.ofList name), rest)
    | _, _ => none
  | _ => none

/-- Reads what has no other meaning at the front of a set: dashes, or a closing bracket. -/
def readSetLead (s : Settings) : List Char → CharSet × List Char
  | '-' :: rest => (.one '-', rest.dropWhile fun c => c == '-' || (s.verbose && Text.isBlank c))
  | ']' :: rest => (.one ']', rest)
  | rest => (.nothing, rest)

mutual

/-- Reads a set behind its opening bracket. -/
def readSet? (s : Settings) : Nat → List Char → Option (CharSet × List Char)
  | 0, _ => none
  | fuel + 1, text => do
    let text := s.skip text
    let (negated, text) := match text with
      | '^' :: rest => (true, s.skip rest)
      | text => (false, text)
    let (lead, text) := readSetLead s text
    let (set, rest) ← readSetItems? s fuel none lead text
    let set := s.fold set
    pure (if negated then .compl set else set, rest)

/-- Reads the items of a set to its closing bracket. `pending` is an operation with its left side. -/
def readSetItems? (s : Settings) : Nat → Option (SetOperation × CharSet) → CharSet → List Char →
    Option (CharSet × List Char)
  | 0, _, _, _ => none
  | fuel + 1, pending, set, text =>
    let close : CharSet := match pending with
      | some (op, left) => op.apply (s.fold left) (s.fold set)
      | none => set
    match s.skip text with
    | [] => none
    | ']' :: rest => some (close, rest)
    | '&' :: '&' :: rest => readSetItems? s fuel (some (.inter, close)) .nothing rest
    | '-' :: '-' :: rest => readSetItems? s fuel (some (.diff, close)) .nothing rest
    | '~' :: '~' :: rest => readSetItems? s fuel (some (.either, close)) .nothing rest
    | '[' :: rest =>
      match readNamedClass? ('[' :: rest) with
      | some (named, rest) => readSetItems? s fuel pending (.union set named) rest
      | none =>
        match readSet? s fuel rest with
        | some (inner, rest) => readSetItems? s fuel pending (.union set inner) rest
        | none => none
    | text =>
      match readSetRange? s text with
      | some (item, rest) => readSetItems? s fuel pending (.union set item) rest
      | none => none

end

/-! ## 4. Repetitions -/

/-- Reads a number between blanks. -/
def readNumber (s : Settings) (text : List Char) : Option Nat × List Char :=
  let text := text.dropWhile Text.isBlank
  let digits := text.takeWhile Char.isDigit
  let rest := (s.skip (text.dropWhile Char.isDigit)).dropWhile Text.isBlank
  let value := digits.foldl (fun n c => n * 10 + (c.toNat - 48)) 0
  (if digits.isEmpty ∨ Nat.pow 2 32 ≤ value then none else some value, s.skip rest)

/-- Reads the bounds of a repetition behind the opening brace. -/
def readBounds? (s : Settings) (text : List Char) : Option (Nat × Option Nat × List Char) := do
  let (low, rest) := readNumber s (s.skip text)
  let low ← low
  match rest with
  | '\x7d' :: rest => pure (low, some low, rest)
  | ',' :: rest =>
    match s.skip rest with
    | '\x7d' :: rest => pure (low, none, rest)
    | rest =>
      let (high, rest) := readNumber s rest
      let high ← high
      match rest with
      | '\x7d' :: rest => if low ≤ high then pure (low, some high, rest) else none
      | _ => none
  | _ => none

/-- Passes over the mark that asks for as few pieces as possible, which pieces of a text do not show. -/
def skipLazy : List Char → List Char
  | '?' :: rest => rest
  | rest => rest

/-! ## 5. Groups -/

/-- A piece of a sequence: a pattern, or a change of settings, which cannot be repeated. -/
inductive Piece where
  | pattern (p : Pattern)
  | settings

/-- What was read around an open group: the choices before, the pieces before in reverse, and the
settings to go back to. -/
structure Frame where
  choices : List Pattern
  pieces : List Piece
  outer : Settings

/-- How far a reading has come. -/
structure Progress where
  frames : List Frame
  choices : List Pattern
  pieces : List Piece
  settings : Settings
  names : List String

/-- The sequence of some pieces, given in reverse. -/
def sequenceOf (pieces : List Piece) : Pattern :=
  let patterns := pieces.reverse.filterMap fun
    | .pattern p => some p
    | .settings => none
  patterns.foldr Pattern.sequence .empty

/-- The pattern of a group: the choices, in reverse, and the last sequence. -/
def Progress.close (g : Progress) : Pattern :=
  g.choices.foldl (fun p choice => Pattern.choice choice p) (sequenceOf g.pieces)

/-- The progress with one more piece. -/
def Progress.push (g : Progress) (p : Pattern) : Progress := { g with pieces := .pattern p :: g.pieces }

/-- The progress with the last piece repeated. -/
def Progress.repeat? (g : Progress) (low : Nat) (high : Option Nat) : Option Progress :=
  match g.pieces with
  | .pattern p :: before => some { g with pieces := .pattern (.many low high p) :: before }
  | _ => none

/-- The progress in a new group with some settings. -/
def Progress.enter (g : Progress) (settings : Settings) : Progress :=
  { g with frames := ⟨g.choices, g.pieces, g.settings⟩ :: g.frames, choices := [], pieces := [], settings }

/-- The progress behind the group. -/
def Progress.leave? (g : Progress) : Option Progress :=
  match g.frames with
  | [] => none
  | frame :: frames =>
    some { g with
      frames
      choices := frame.choices
      pieces := .pattern g.close :: frame.pieces
      settings := frame.outer }

/-- How deep groups may nest. -/
def maxDepth : Nat := 250

/-- May the character stand in the name of a group, at its front or later? -/
def isNameCharacter (first : Bool) (c : Char) : Bool :=
  if first then c == '_' || Text.isOf Text.Category.letters c
  else c == '_' || c == '.' || c == '[' || c == ']' || Text.isLetterOrNumber c

/-- Reads the name of a group. -/
def readName? (g : Progress) (text : List Char) : Option (Progress × List Char) := do
  let (name, rest) ← upTo? '>' text
  match name with
  | [] => none
  | first :: more =>
    let text := String.ofList name
    if !isNameCharacter true first || !more.all (isNameCharacter false) || g.names.contains text then none
    else pure ({ g with names := text :: g.names }.enter g.settings, rest)

/-- Reads the letters of settings. `negated` says whether a dash was met and whether a letter has followed
it. -/
def readSettings? (s : Settings) (seen : List Char) (negated : Option Bool) :
    List Char → Option (Settings × Char × List Char)
  | [] => none
  | c :: rest =>
    if c == ')' || c == ':' then
      if negated = some false then none
      else if c == ')' && seen.isEmpty then none
      else some (s, c, rest)
    else if c == '-' then
      if negated.isSome then none else readSettings? s seen (some false) rest
    else if seen.contains c then none
    else
      match s.switch negated.isNone c with
      | some s => readSettings? s (c :: seen) (negated.map fun _ => true) rest
      | none => none

/-- Reads the opening of a group behind its bracket. -/
def openGroup? (g : Progress) (text : List Char) : Option (Progress × List Char) :=
  match g.settings.skip text with
  | '?' :: '=' :: _ | '?' :: '!' :: _ | '?' :: '<' :: '=' :: _ | '?' :: '<' :: '!' :: _ => none
  | '?' :: 'P' :: '<' :: rest => readName? g rest
  | '?' :: '<' :: rest => readName? g rest
  | '?' :: rest =>
    match readSettings? g.settings [] none rest with
    | some (settings, ')', rest) =>
      some ({ g with settings, pieces := .settings :: g.pieces }, rest)
    | some (settings, _, rest) => some (g.enter settings, rest)
    | none => none
  | rest => some (g.enter g.settings, rest)

/-! ## 6. Whole patterns -/

/-- The set of the dot. -/
def Settings.dot (s : Settings) : CharSet :=
  if s.dotAll then .any
  else if s.wideLines then .compl (.ranges [('\n', '\n'), ('\r', '\r')])
  else .compl (.one '\n')

/-- The condition of `^`. -/
def Settings.caret (s : Settings) : Look :=
  if !s.lines then .textStart else if s.wideLines then .wideLineStart else .lineStart

/-- The condition of `$`. -/
def Settings.dollar (s : Settings) : Look :=
  if !s.lines then .textEnd else if s.wideLines then .wideLineEnd else .lineEnd

/-- The pattern of an escape. -/
def escapePattern? (s : Settings) : Escape → Option Pattern
  | .literal c => (s.literal? c).map .one
  | .set set => (s.allow? set).map .one
  | .look l => some (.look l)

/-- Reads one piece of a pattern from a text that is not empty. -/
def step? (fuel : Nat) (g : Progress) : List Char → Option (Progress × List Char)
  | [] => some (g, [])
  | '(' :: rest =>
    if maxDepth ≤ g.frames.length then none else openGroup? g rest
  | ')' :: rest => (g.leave?).map (·, rest)
  | '|' :: rest => some ({ g with choices := sequenceOf g.pieces :: g.choices, pieces := [] }, rest)
  | '[' :: rest => do
    let (set, rest) ← readSet? g.settings fuel rest
    pure (g.push (.one (← g.settings.allow? set)), rest)
  | '?' :: rest => (g.repeat? 0 (some 1)).map (·, skipLazy rest)
  | '*' :: rest => (g.repeat? 0 none).map (·, skipLazy rest)
  | '+' :: rest => (g.repeat? 1 none).map (·, skipLazy rest)
  | '\x7b' :: rest => do
    let (low, high, rest) ← readBounds? g.settings rest
    pure (← g.repeat? low high, skipLazy (g.settings.skip rest))
  | '\\' :: rest => do
    let (escape, rest) ← readEscape? g.settings rest
    pure (g.push (← escapePattern? g.settings escape), rest)
  | '.' :: rest => do pure (g.push (.one (← g.settings.allow? g.settings.dot)), rest)
  | '^' :: rest => some (g.push (.look g.settings.caret), rest)
  | '$' :: rest => some (g.push (.look g.settings.dollar), rest)
  | c :: rest => do pure (g.push (.one (← g.settings.literal? c)), rest)

/-- Reads pieces to the end of the text. -/
def readAll? : Nat → Progress → List Char → Option Progress
  | 0, _, _ => none
  | fuel + 1, g, text =>
    match g.settings.skip text with
    | [] => some g
    | text =>
      match step? (fuel + 1) g text with
      | some (g, rest) => readAll? fuel g rest
      | none => none

/-- Reads the text of a pattern. -/
def read? (text : String) : Option Pattern := do
  let chars := text.toList
  let g ← readAll? (chars.length + 1) ⟨[], [], [], .initial, []⟩ chars
  if g.frames.isEmpty && g.close.weight ≤ weightLimit then some g.close else none

end RouteScaffold.Pattern
