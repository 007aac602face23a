import RouteScaffold.Document.Yaml.Token

/-!
# Scalar texts

The three written forms of a YAML scalar: block scalars (`block`), quoted scalars (`quoted`) and plain
scalars (`plain`). All fold line breaks by one rule (`fold`): a single break reads as a space, a run of
breaks loses its first. Texts under construction are held last character first. Every loop is bounded
by `limit`, a number above the count of characters to read.
-/

namespace RouteScaffold.Document.Yaml

/-- What a break followed by further breaks adds to a text, last character first. `lead` is the first
break; both lists are held last character first. -/
def fold (lead trail : List Char) : List Char :=
  if lead = ['\n'] then (if trail.isEmpty then [' '] else trail) else trail ++ lead

/-! ## 1. Block scalars -/

/-- What is kept of the breaks behind a block scalar. -/
inductive Chomping where
  | strip
  | clip
  | keep
  deriving DecidableEq, Repr

/-- The header of a block scalar: chomping, and the indentation if it is given. -/
structure BlockHeader where
  chomping : Chomping
  indentation : Option Nat

/-- Reads the chomping mark, if any. -/
def chomping? (c : Cursor) : Option Chomping × Cursor :=
  if c.at? '+' then (some .keep, c.skip)
  else if c.at? '-' then (some .strip, c.skip)
  else (none, c)

/-- Reads the indentation digit, if any. -/
def indentation? (since : Mark) (c : Cursor) : Except Fault (Option Nat × Cursor) :=
  match c.peek? with
  | some x =>
    if x = '0' then .error (.during .blockScalar since .zeroIndentation c.mark)
    else if x.isDigit then .ok (some (x.toNat - '0'.toNat), c.skip)
    else .ok (none, c)
  | none => .ok (none, c)

/-- Reads the header behind `|` or `>`, up to the end of its line. -/
def blockHeader (since : Mark) (c : Cursor) : Except Fault (BlockHeader × Cursor) := do
  let (first, c) := chomping? c
  let (indentation, c) ← indentation? since c
  let (second, c) := if first.isNone && indentation.isSome then chomping? c else (none, c)
  let c := c.skipWhile isSpace
  let c := if c.at? '#' then c.skipWhile (!isBreak ·) else c
  if c.atBreakOrEnd then
    .ok (⟨(first <|> second).getD .clip, indentation⟩, c.skipBreak)
  else .error (.during .blockScalar since .noCommentOrBreak c.mark)

/-- Behind the spaces of the indentation; all spaces while the indentation is not known (0). -/
def Cursor.skipIndentation (indentation : Nat) (c : Cursor) : Cursor :=
  let spaces := (c.rest.takeWhile (· == ' ')).length
  skipN (if indentation = 0 then spaces else min spaces (indentation - c.mark.column)) c

/-- Reads the empty lines ahead and the indentation of the next line: the greatest column seen and the
breaks. -/
def blockBreaks (since : Mark) (indentation : Nat) :
    Nat → Nat → List Char → Cursor → Except Fault ((Nat × List Char) × Cursor)
  | 0, greatest, breaks, c => .ok ((greatest, breaks), c)
  | fuel + 1, greatest, breaks, c =>
    let c := c.skipIndentation indentation
    let greatest := max greatest c.mark.column
    if (indentation = 0 ∨ c.mark.column < indentation) ∧ c.at? '\t' then
      .error (.during .blockScalar since .tabForIndentation c.mark)
    else if c.sat isBreak then
      let (read, c) := c.readBreak
      blockBreaks since indentation fuel greatest (read ++ breaks) c
    else .ok ((greatest, breaks), c)

/-- A block scalar under construction. -/
structure BlockText where
  text : List Char
  /-- The break behind the last line. -/
  lead : List Char
  /-- The breaks of the empty lines behind that. -/
  trail : List Char
  /-- The last line began with a blank. -/
  blank : Bool

/-- The text with the breaks behind the last line, when a line follows that begins with a blank
exactly if `blank`. Lines that begin with a blank are not folded. -/
def BlockText.joined (b : BlockText) (literal blank : Bool) : List Char :=
  if !literal && b.lead == ['\n'] && !b.blank && !blank then
    (if b.trail.isEmpty then [' '] else b.trail) ++ b.text
  else b.trail ++ b.lead ++ b.text

/-- Reads the lines of a block scalar. -/
def blockLines (since : Mark) (literal : Bool) (indentation limit : Nat) :
    Nat → BlockText → Cursor → Except Fault (BlockText × Cursor)
  | 0, b, c => .ok (b, c)
  | fuel + 1, b, c =>
    if c.mark.column = indentation ∧ c.atEnd = false then
      let blank := c.sat isSpace
      let (line, c) := c.span (!isBreak ·)
      let (lead, c) := c.readBreak
      match blockBreaks since indentation limit 0 [] c with
      | .error e => .error e
      | .ok ((_, trail), c) =>
        blockLines since literal indentation limit fuel
          ⟨line.reverse ++ b.joined literal blank, lead, trail, blank⟩ c
    else .ok (b, c)

/-- Reads a block scalar; the cursor stands at its `|` (`literal`) or `>`. `outer` is the indentation
around it. -/
def block (literal : Bool) (outer : Int) (limit : Nat) (c : Cursor) : Except Fault (String × Cursor) := do
  let since := c.mark
  let (header, c) ← blockHeader since c.skip
  let given :=
    match header.indentation with
    | none => 0
    | some n => if 0 ≤ outer then outer.toNat + n else n
  let ((greatest, trail), c) ← blockBreaks since given limit 0 [] c
  let indentation :=
    if given = 0 then max (max greatest (outer + 1).toNat) 1 else given
  let (b, c) ← blockLines since literal indentation limit limit ⟨[], [], trail, false⟩ c
  let text := if header.chomping = .strip then b.text else b.lead ++ b.text
  let text := if header.chomping = .keep then b.trail ++ text else text
  .ok (String.ofList text.reverse, c)

/-! ## 2. Blanks within quoted and plain scalars -/

/-- The blanks between two words of a scalar. -/
structure Gap where
  /-- The blanks of the line, while no break was read. -/
  spaces : List Char
  /-- The first break, once one was read. -/
  lead : List Char
  /-- The breaks behind it. -/
  trail : List Char
  /-- A break was read. -/
  broken : Bool

/-- No blanks. -/
def Gap.none : Gap := ⟨[], [], [], false⟩

/-- What the gap reads as, last character first. -/
def Gap.text (g : Gap) : List Char := if g.broken then fold g.lead g.trail else g.spaces

/-- Takes the line break that follows. -/
def Gap.takeBreak (g : Gap) (read : List Char) : Gap :=
  if g.broken then { g with trail := read ++ g.trail } else ⟨[], read, [], true⟩

/-- Takes a blank. -/
def Gap.takeSpace (g : Gap) (x : Char) : Gap :=
  if g.broken then g else { g with spaces := x :: g.spaces }

/-- Reads the blanks and breaks that follow. A tab that `tabFault` refuses is a fault. -/
def gap (tabFault : Gap → Cursor → Option Fault) : Nat → Gap → Cursor → Except Fault (Gap × Cursor)
  | 0, g, c => .ok (g, c)
  | fuel + 1, g, c =>
    match c.peek? with
    | .none => .ok (g, c)
    | some x =>
      if isSpace x then
        match tabFault g c with
        | some e => .error e
        | .none => gap tabFault fuel (g.takeSpace x) c.skip
      else if isBreak x then
        let (read, c) := c.readBreak
        gap tabFault fuel (g.takeBreak read) c
      else .ok (g, c)

/-! ## 3. Quoted scalars -/

/-- What a one-letter escape stands for. -/
def shortEscape? (c : Char) : Option Char :=
  match c with
  | '0' => some (Char.ofNat 0x00)
  | 'a' => some (Char.ofNat 0x07)
  | 'b' => some (Char.ofNat 0x08)
  | 't' => some '\t'
  | '\t' => some '\t'
  | 'n' => some '\n'
  | 'v' => some (Char.ofNat 0x0B)
  | 'f' => some (Char.ofNat 0x0C)
  | 'r' => some '\r'
  | 'e' => some (Char.ofNat 0x1B)
  | ' ' => some ' '
  | '"' => some '"'
  | '/' => some '/'
  | '\\' => some '\\'
  | 'N' => some (Char.ofNat 0x85)
  | '_' => some (Char.ofNat 0xA0)
  | 'L' => some (Char.ofNat 0x2028)
  | 'P' => some (Char.ofNat 0x2029)
  | _ => none

/-- How many hexadecimal digits follow the letter of a numeric escape. -/
def escapeDigits? (c : Char) : Option Nat :=
  match c with
  | 'x' => some 2
  | 'u' => some 4
  | 'U' => some 8
  | _ => none

/-- Is the number the code of a character? -/
def isScalarValue (n : Nat) : Bool := n < 0xD800 || (0xDFFF < n && n ≤ 0x10FFFF)

/-- Reads an escape; the cursor stands at its backslash. -/
def escape (since : Mark) (c : Cursor) : Except Fault (Char × Cursor) :=
  let letter := (c.ahead? 1).getD (Char.ofNat 0)
  match shortEscape? letter with
  | some x => .ok (x, c.skip.skip)
  | none =>
    match escapeDigits? letter with
    | none => .error (.during .quotedEscape since .unknownEscape c.mark)
    | some count =>
      let c := c.skip.skip
      let digits := c.rest.take count
      if digits.length = count ∧ digits.all isHexDigit then
        let n := digits.foldl (fun n d => n * 16 + hexValue d) 0
        if isScalarValue n then .ok (Char.ofNat n, c.skipN count)
        else .error (.during .quotedEscape since .badCodePoint c.mark)
      else .error (.during .quotedEscape since .noHexDigit c.mark)

/-- Reads the characters of a quoted scalar up to a blank, a break or the closing quote. An escaped
break ends the word and leaves a gap that is broken. -/
def quotedWord (single : Bool) (since : Mark) :
    Nat → List Char → Cursor → Except Fault ((List Char × Bool) × Cursor)
  | 0, read, c => .ok ((read, false), c)
  | fuel + 1, read, c =>
    match c.rest with
    | [] => .ok ((read, false), c)
    | x :: more =>
      if isSpace x || isBreak x then .ok ((read, false), c)
      else if single && x == '\'' && more.head? == some '\'' then
        quotedWord single since fuel ('\'' :: read) (c.skipN 2)
      else if x == (if single then '\'' else '"') then .ok ((read, false), c)
      else if !single && x == '\\' then
        if more.head?.any isBreak then .ok ((read, true), c.skip.skipBreak)
        else
          match escape since c with
          | .ok (y, c) => quotedWord single since fuel (y :: read) c
          | .error e => .error e
      else quotedWord single since fuel (x :: read) c.skip

/-- Reads the words of a quoted scalar and its closing quote. -/
def quotedWords (single : Bool) (since : Mark) (limit : Nat) :
    Nat → List Char → Cursor → Except Fault (List Char × Cursor)
  | 0, read, c => .ok (read, c)
  | fuel + 1, read, c =>
    if c.atDocumentMark then .error (.during .quotedScalar since .documentMark c.mark)
    else if c.atEnd then .error (.during .quotedScalar since .endOfStream c.mark)
    else
      match quotedWord single since limit read c with
      | .error e => .error e
      | .ok ((read, escaped), c) =>
        if c.at? (if single then '\'' else '"') then .ok (read, c.skip)
        else
          match gap (fun _ _ => none) limit { Gap.none with broken := escaped } c with
          | .error e => .error e
          | .ok (g, c) => quotedWords single since limit fuel (g.text ++ read) c

/-- Reads a quoted scalar; the cursor stands at its opening quote. -/
def quoted (single : Bool) (limit : Nat) (c : Cursor) : Except Fault (String × Cursor) := do
  let (read, c) ← quotedWords single c.mark limit limit [] c.skip
  .ok (String.ofList read.reverse, c)

/-! ## 4. Plain scalars -/

/-- The characters that structure flow collections. -/
def isFlowMark (x : Char) : Bool :=
  x == ',' || x == '[' || x == ']' || x == '{' || x == '}'

/-- Reads the characters of a plain scalar up to a blank or its end. `pending` is the gap ahead, which
counts once a character follows. -/
def plainWord (flow : Bool) (since : Mark) :
    Nat → Gap → List Char → Cursor → Except Fault ((Gap × List Char) × Cursor)
  | 0, pending, read, c => .ok ((pending, read), c)
  | fuel + 1, pending, read, c =>
    match c.rest with
    | [] => .ok ((pending, read), c)
    | x :: more =>
      let next := more.head?
      if isSpace x || isBreak x then .ok ((pending, read), c)
      else if flow && x == ':' && next.any (fun y => isFlowMark y || y == '?') then
        .error (.during .plainScalar since .unexpectedColon c.mark)
      else if (x == ':' && next.all (fun y => isSpace y || isBreak y)) || (flow && isFlowMark x) then
        .ok ((pending, read), c)
      else plainWord flow since fuel Gap.none (x :: (pending.text ++ read)) c.skip

/-- A tab may not stand in the indentation of a continued plain scalar. -/
def plainTabFault (indentation : Int) (since : Mark) (g : Gap) (c : Cursor) : Option Fault :=
  if g.broken && decide (Int.ofNat c.mark.column < indentation) && c.at? '\t' then
    some (.during .plainScalar since .tabInIndentation c.mark)
  else none

/-- Reads the words of a plain scalar: its characters, the place behind the last of them, and whether
the blanks behind it hold a break. -/
def plainWords (flow : Bool) (indentation : Int) (since : Mark) (limit : Nat) :
    Nat → Gap → List Char → Mark → Cursor → Except Fault ((List Char × Mark × Bool) × Cursor)
  | 0, pending, read, stop, c => .ok ((read, stop, pending.broken), c)
  | fuel + 1, pending, read, stop, c =>
    if c.atDocumentMark || c.at? '#' then .ok ((read, stop, pending.broken), c)
    else
      match plainWord flow since limit pending read c with
      | .error e => .error e
      | .ok ((pending, read), c') =>
        let stop := if c'.mark.index = c.mark.index then stop else c'.mark
        if c'.sat (fun x => isSpace x || isBreak x) then
          match gap (plainTabFault indentation since) limit pending c' with
          | .error e => .error e
          | .ok (g, c) =>
            if !flow && decide (Int.ofNat c.mark.column < indentation) then
              .ok ((read, stop, g.broken), c)
            else plainWords flow indentation since limit fuel g read stop c
        else .ok ((read, stop, pending.broken), c')

/-- Reads a plain scalar: its text, the place behind it, and whether a line ended behind it. `outer` is
the indentation around it. -/
def plain (flow : Bool) (outer : Int) (limit : Nat) (c : Cursor) :
    Except Fault ((String × Mark × Bool) × Cursor) := do
  let ((read, stop, broken), c) ←
    plainWords flow (outer + 1) c.mark limit limit Gap.none [] c.mark c
  .ok ((String.ofList read.reverse, stop, broken), c)

end RouteScaffold.Document.Yaml
