import RouteScaffold.Document.Yaml.ScalarText

/-!
# From characters to tokens

`Token.scan` reads a text as its tokens, followed by the first fault, if any. Indentation opens and
closes block collections (`rollIndent`, `unrollIndent`). A mapping key is recognised by the `:` behind
it: each place where a key may begin is remembered (`KeySpot`), and when the `:` comes, a `key` token is
put in at that place. A key spot holds within one line and 1024 characters.
-/

namespace RouteScaffold.Document.Yaml

/-! ## 1. The lexer's state -/

/-- A place where a simple key may have begun. -/
structure KeySpot where
  /-- A key has to begin here, because the block mapping continues here. -/
  required : Bool
  /-- How many tokens came before it. -/
  number : Nat
  mark : Mark

/-- The state between two tokens. -/
structure Lexer where
  cursor : Cursor
  /-- Tokens that were read and not yet handed out. -/
  queue : List Token
  /-- How many tokens were handed out. -/
  handed : Nat
  ended : Bool
  /-- How many flow collections are open. -/
  flow : Nat
  /-- The column of the innermost block collection, -1 outside of all. -/
  indent : Int
  /-- The columns of the block collections around it. -/
  outer : List Int
  /-- May a simple key begin here? -/
  keyAllowed : Bool
  /-- The key spots of the open flow collections, innermost first; the last is that of the block. -/
  spots : List (Option KeySpot)
  /-- A number above the count of characters. -/
  limit : Nat

namespace Lexer

/-- The current place. -/
def mark (l : Lexer) : Mark := l.cursor.mark

/-- Puts a token at the end of the queue. -/
def push (l : Lexer) (kind : Token.Kind) (start stop : Mark) : Lexer :=
  { l with queue := l.queue ++ [⟨kind, start, stop⟩] }

/-- Puts a token before the token with the given number. -/
def insertAt (l : Lexer) (number : Nat) (kind : Token.Kind) (mark : Mark) : Lexer :=
  { l with queue := l.queue.insertIdx (number - l.handed) ⟨kind, mark, mark⟩ }

/-- The fault of a key spot at which no key came. -/
def missingColon (l : Lexer) (spot : KeySpot) : Fault :=
  .during .simpleKey spot.mark .noColon l.mark

/-- Is a key spot too far behind to hold? -/
def isStale (l : Lexer) (spot : KeySpot) : Bool :=
  spot.mark.line < l.mark.line || spot.mark.index + 1024 < l.mark.index

/-- Drops the key spots that no longer hold. -/
def dropStale (l : Lexer) : Except Fault Lexer := do
  let spots ← l.spots.reverse.mapM fun spot? =>
    match spot? with
    | none => .ok none
    | some spot =>
      if l.isStale spot then
        if spot.required then .error (l.missingColon spot) else .ok none
      else .ok (some spot)
  .ok { l with spots := spots.reverse }

/-- Forgets the innermost key spot. -/
def dropSpot (l : Lexer) : Except Fault Lexer :=
  match l.spots with
  | some spot :: spots =>
    if spot.required then .error (l.missingColon spot) else .ok { l with spots := none :: spots }
  | _ => .ok l

/-- Remembers that a simple key may begin here. -/
def saveSpot (l : Lexer) : Except Fault Lexer := do
  if l.keyAllowed then
    let required := l.flow == 0 && l.indent == Int.ofNat l.mark.column
    let spot : KeySpot := ⟨required, l.handed + l.queue.length, l.mark⟩
    let l ← l.dropSpot
    .ok { l with spots := some spot :: l.spots.drop 1 }
  else .ok l

/-- Opens a block collection at a column right of the current one; `number` is the token it goes before,
the end of the queue if absent. -/
def rollIndent (l : Lexer) (column : Nat) (number : Option Nat) (kind : Token.Kind) (mark : Mark) :
    Lexer :=
  if l.flow = 0 ∧ l.indent < Int.ofNat column then
    let l := { l with outer := l.indent :: l.outer, indent := Int.ofNat column }
    match number with
    | some n => l.insertAt n kind mark
    | none => l.push kind mark mark
  else l

/-- The block collections right of a column, closed: how many, and what remains. -/
def unrolled (column : Int) : Int → List Int → Nat × Int × List Int
  | indent, [] => (0, indent, [])
  | indent, next :: outer =>
    if column < indent then
      let (n, rest) := unrolled column next outer
      (n + 1, rest)
    else (0, indent, next :: outer)

/-- Closes the block collections right of a column. -/
def unrollIndent (l : Lexer) (column : Int) : Lexer :=
  if l.flow = 0 then
    let (closed, indent, outer) := unrolled column l.indent l.outer
    let ends := List.replicate closed ⟨Token.Kind.blockEnd, l.mark, l.mark⟩
    { l with queue := l.queue ++ ends, indent, outer }
  else l

/-! ## 2. Blanks and comments -/

/-- Goes to the next token. In a block, a line break makes a simple key possible again; a tab counts as
a blank only where no key may begin. -/
def toNext : Nat → Lexer → Lexer
  | 0, l => l
  | fuel + 1, l =>
    let c := l.cursor
    let c := if c.mark.index = 0 ∧ c.at? (Char.ofNat 0xFEFF) then c.skip else c
    let tabs := l.flow != 0 || !l.keyAllowed
    let c := c.skipWhile fun x => x == ' ' || (tabs && x == '\t')
    let c := if c.at? '#' then c.skipWhile (!isBreak ·) else c
    if c.sat isBreak then
      toNext fuel { l with cursor := c.skipBreak, keyAllowed := l.keyAllowed || l.flow == 0 }
    else { l with cursor := c }

/-! ## 3. Directives -/

/-- Reads a version number. -/
def versionNumber (since : Mark) (c : Cursor) : Except Fault (Nat × Cursor) :=
  let digits := c.rest.takeWhile Char.isDigit
  if digits.length > 9 then .error (.during .versionDirective since .longVersion (c.skipN 9).mark)
  else if digits.isEmpty then .error (.during .versionDirective since .noVersion c.mark)
  else .ok (digits.foldl (fun n d => n * 10 + (d.toNat - '0'.toNat)) 0, c.skipN digits.length)

/-- Reads the numbers of a `%YAML` directive. -/
def versionRule (since : Mark) (c : Cursor) : Except Fault (Token.Kind × Cursor) := do
  let (major, c) ← versionNumber since (c.skipWhile isSpace)
  if c.at? '.' then
    let (minor, c) ← versionNumber since c.skip
    .ok (.version major minor, c)
  else .error (.during .versionDirective since .noDigitOrPoint c.mark)

/-- Reads a tag handle, such as `!`, `!!` or `!a!`. -/
def tagHandle (directive : Bool) (since : Mark) (c : Cursor) : Except Fault (String × Cursor) :=
  if c.at? '!' then
    let (name, c) := c.skip.span isNameChar
    if c.at? '!' then .ok (String.ofList ('!' :: name ++ ['!']), c.skip)
    else if directive && !name.isEmpty then
      .error (.during .tagDirectiveText since .noTagMark c.mark)
    else .ok (String.ofList ('!' :: name), c)
  else .error (.during (if directive then .tagDirective else .tag) since .noTagMark c.mark)

/-- The length that the first byte of an encoded character gives. -/
def octetCount? (n : Nat) : Option Nat :=
  if n < 0x80 then some 1
  else if n / 0x20 = 0x06 then some 2
  else if n / 0x10 = 0x0E then some 3
  else if n / 0x08 = 0x1E then some 4
  else none

/-- Reads one byte escaped as `%` and two digits. -/
def octet (directive : Bool) (since : Mark) (c : Cursor) : Except Fault (Nat × Cursor) :=
  match c.rest.take 3 with
  | ['%', a, b] =>
    if isHexDigit a && isHexDigit b then .ok (hexValue a * 16 + hexValue b, c.skipN 3)
    else .error (.during (if directive then .tagDirectiveText else .tagText) since .noUriOctet c.mark)
  | _ => .error (.during (if directive then .tagDirectiveText else .tagText) since .noUriOctet c.mark)

/-- Reads the further bytes of an escaped character. -/
def octets (directive : Bool) (since : Mark) : Nat → List Nat → Cursor → Except Fault (List Nat × Cursor)
  | 0, read, c => .ok (read.reverse, c)
  | n + 1, read, c => do
    let start := c.mark
    let (byte, c) ← octet directive since c
    if byte / 0x40 = 0x02 then octets directive since n (byte :: read) c
    else
      .error (.during (if directive then .tagDirectiveText else .tagText) since .badTrailingOctet start)

/-- Reads an escaped character of a tag. -/
def uriEscape (directive : Bool) (since : Mark) (c : Cursor) : Except Fault (List Char × Cursor) := do
  let (byte, after) ← octet directive since c
  match octetCount? byte with
  | none =>
    .error (.during (if directive then .tagDirectiveText else .tagText) since .badLeadingOctet c.mark)
  | some n =>
    let (bytes, after) ← octets directive since (n - 1) [byte] after
    let text := String.fromUTF8? ⟨(bytes.map UInt8.ofNat).toArray⟩
    .ok ((text.getD "\x7f").toList, after)

/-- A character of a tag; the wide form also has comma and brackets. -/
def isUriChar (wide : Bool) (x : Char) : Bool :=
  isNameChar x || ";/?:@&=+$.!~*'()".toList.contains x || (wide && (x == ',' || x == '[' || x == ']'))

/-- Reads the characters of a tag. -/
def uriChars (wide directive : Bool) (since : Mark) : Nat → List Char → Cursor → Except Fault (List Char × Cursor)
  | 0, read, c => .ok (read.reverse, c)
  | fuel + 1, read, c =>
    match c.peek? with
    | none => .ok (read.reverse, c)
    | some x =>
      if x = '%' then
        match uriEscape directive since c with
        | .ok (text, c) => uriChars wide directive since fuel (text.reverse ++ read) c
        | .error e => .error e
      else if isUriChar wide x then uriChars wide directive since fuel (x :: read) c.skip
      else .ok (read.reverse, c)

/-- Reads the characters of a tag behind `head`, of which there may be none only if `head` has some. -/
def uri (wide directive : Bool) (head : List Char) (since : Mark) (limit : Nat) (c : Cursor) :
    Except Fault (String × Cursor) := do
  let (text, after) ← uriChars wide directive since limit [] c
  if head.isEmpty && text.isEmpty then
    .error (.during (if directive then .tagDirectiveText else .tagText) since .noTagUri after.mark)
  else .ok (String.ofList (head.drop 1 ++ text), after)

/-- Reads the handle and the root of a `%TAG` directive. -/
def tagRule (since : Mark) (limit : Nat) (c : Cursor) : Except Fault (Token.Kind × Cursor) := do
  let (handle, c) ← tagHandle true since (c.skipWhile isSpace)
  if c.sat isSpace then
    let (root, c) ← uri true true [] since limit (c.skipWhile isSpace)
    if c.blankAhead 0 then .ok (.tagRule handle root, c)
    else .error (.during .tagDirective since .noWhitespaceOrBreak c.mark)
  else .error (.during .tagDirective since .noWhitespace c.mark)

/-- Reads a directive; the cursor stands at its `%`. -/
def directive (limit : Nat) (c : Cursor) : Except Fault (Token × Cursor) := do
  let since := c.mark
  let (name, c) := c.skip.span isNameChar
  if name.isEmpty then .error (.during .directive since .noDirectiveName c.mark)
  else if !c.blankAhead 0 then .error (.during .directive since .badDirectiveName c.mark)
  else
    let (kind, c) ←
      if name = ['Y', 'A', 'M', 'L'] then versionRule since c
      else if name = ['T', 'A', 'G'] then tagRule since limit c
      else .error (.during .directive since .unknownDirective c.mark)
    let stop := c.mark
    let c := c.skipWhile isSpace
    let c := if c.at? '#' then c.skipWhile (!isBreak ·) else c
    if c.atBreakOrEnd then .ok (⟨kind, since, stop⟩, c.skipBreak)
    else .error (.during .directive since .noCommentOrBreak c.mark)

/-! ## 4. Anchors and tags -/

/-- What may follow the name of an anchor or an alias. -/
def endsName (c : Cursor) : Bool := c.blankAhead 0 || c.sat "?:,]\x7d%@`".toList.contains

/-- Reads the name of an anchor or of an alias; the cursor stands at its `&` or `*`. -/
def nameToken (isAlias : Bool) (c : Cursor) : Except Fault (Token × Cursor) :=
  let since := c.mark
  let (name, c) := c.skip.span isNameChar
  if name.isEmpty || !endsName c then
    .error (.during (if isAlias then .alias else .anchor) since .noNameCharacter c.mark)
  else
    let name := String.ofList name
    .ok (⟨if isAlias then .alias name else .anchor name, since, c.mark⟩, c)

/-- Reads a tag in angle brackets. -/
def verbatimTag (since : Mark) (limit : Nat) (c : Cursor) : Except Fault (Token.Kind × Cursor) := do
  let (suffix, c) ← uri true false [] since limit (c.skipN 2)
  if c.at? '>' then .ok (.tag "" suffix, c.skip)
  else .error (.during .tag since .noTagEnd c.mark)

/-- Reads a tag of a handle and a suffix; `!` alone is a suffix. -/
def shortTag (since : Mark) (limit : Nat) (c : Cursor) : Except Fault (Token.Kind × Cursor) := do
  let (handle, c) ← tagHandle false since c
  if handle.endsWith "!" && handle ≠ "!" then
    let (suffix, c) ← uri false false [] since limit c
    .ok (.tag handle suffix, c)
  else
    let (suffix, c) ← uri false false handle.toList since limit c
    .ok (if suffix.isEmpty then .tag "" "!" else .tag "!" suffix, c)

/-- Reads a tag; the cursor stands at its `!`. -/
def tagToken (flow : Bool) (limit : Nat) (c : Cursor) : Except Fault (Token × Cursor) := do
  let since := c.mark
  let (kind, c) ←
    if c.ahead? 1 = some '<' then verbatimTag since limit c else shortTag since limit c
  if c.blankAhead 0 || (flow && c.at? ',') then .ok (⟨kind, since, c.mark⟩, c)
  else .error (.during .tag since .noWhitespaceOrBreak c.mark)

/-! ## 5. One token further -/

/-- Takes a token of `n` characters. -/
def take (l : Lexer) (n : Nat) (kind : Token.Kind) : Lexer :=
  let c := l.cursor.skipN n
  { l with cursor := c }.push kind l.mark c.mark

/-- Takes a token that was read. -/
def accept (l : Lexer) (read : Token × Cursor) : Lexer :=
  { l with cursor := read.2, queue := l.queue ++ [read.1] }

/-- Ends the stream. The end stands at the start of a line. -/
def takeEnd (l : Lexer) : Except Fault Lexer := do
  let m := l.mark
  let m := if m.column = 0 then m else ⟨m.index, m.line + 1, 0⟩
  let l ← ({ l with cursor := ⟨[], m⟩ }.unrollIndent (-1)).dropSpot
  .ok { l.push .streamEnd m m with keyAllowed := false, ended := true }

/-- Takes a directive. -/
def takeDirective (l : Lexer) : Except Fault Lexer := do
  let l ← (l.unrollIndent (-1)).dropSpot
  let read ← directive l.limit l.cursor
  .ok ({ l with keyAllowed := false }.accept read)

/-- Takes a document mark. -/
def takeDocumentMark (l : Lexer) (kind : Token.Kind) : Except Fault Lexer := do
  let l ← (l.unrollIndent (-1)).dropSpot
  .ok ({ l with keyAllowed := false }.take 3 kind)

/-- Opens a flow collection. -/
def openFlow (l : Lexer) (kind : Token.Kind) : Except Fault Lexer := do
  let l ← l.saveSpot
  .ok ({ l with spots := none :: l.spots, flow := l.flow + 1, keyAllowed := true }.take 1 kind)

/-- Closes a flow collection. -/
def closeFlow (l : Lexer) (kind : Token.Kind) : Except Fault Lexer := do
  let l ← l.dropSpot
  let spots := if l.flow = 0 then l.spots else l.spots.drop 1
  .ok ({ l with spots, flow := l.flow - 1, keyAllowed := false }.take 1 kind)

/-- Takes a `,` of a flow collection. -/
def takeFlowEntry (l : Lexer) : Except Fault Lexer := do
  let l ← l.dropSpot
  .ok ({ l with keyAllowed := true }.take 1 .flowEntry)

/-- Takes the `-` of a list item. -/
def takeBlockEntry (l : Lexer) : Except Fault Lexer := do
  if l.flow = 0 ∧ l.keyAllowed = false then .error (.plain .blockEntryHere l.mark)
  else
    let l ← (l.rollIndent l.mark.column none .blockListStart l.mark).dropSpot
    .ok ({ l with keyAllowed := true }.take 1 .blockEntry)

/-- Takes a `?`. -/
def takeKey (l : Lexer) : Except Fault Lexer := do
  if l.flow = 0 ∧ l.keyAllowed = false then .error (.plain .mappingKeyHere l.mark)
  else
    let l ← (l.rollIndent l.mark.column none .blockMapStart l.mark).dropSpot
    .ok ({ l with keyAllowed := l.flow == 0 }.take 1 .key)

/-- Takes a `:`. If a simple key can have begun, it did. -/
def takeValue (l : Lexer) : Except Fault Lexer :=
  match l.spots with
  | some spot :: spots =>
    let l := l.insertAt spot.number .key spot.mark
    let l := l.rollIndent spot.mark.column (some spot.number) .blockMapStart spot.mark
    .ok ({ l with spots := none :: spots, keyAllowed := false }.take 1 .value)
  | _ =>
    if l.flow = 0 ∧ l.keyAllowed = false then .error (.plain .mappingValueHere l.mark)
    else
      let l := l.rollIndent l.mark.column none .blockMapStart l.mark
      .ok ({ l with keyAllowed := l.flow == 0 }.take 1 .value)

/-- Takes an anchor, an alias, a tag or a quoted scalar: a token that may begin a simple key and behind
which none begins. -/
def takeWith (l : Lexer) (read : Cursor → Except Fault (Token × Cursor)) : Except Fault Lexer := do
  let l ← l.saveSpot
  .ok ({ l with keyAllowed := false }.accept (← read l.cursor))

/-- Takes a block scalar. -/
def takeBlock (l : Lexer) (literal : Bool) : Except Fault Lexer := do
  let l ← l.dropSpot
  let start := l.mark
  let (text, c) ← block literal l.indent l.limit l.cursor
  .ok ({ l with keyAllowed := true }.accept (⟨.scalar text false, start, c.mark⟩, c))

/-- Reads a quoted scalar as a token. -/
def quotedToken (single : Bool) (limit : Nat) (c : Cursor) : Except Fault (Token × Cursor) := do
  let (text, after) ← quoted single limit c
  .ok (⟨.scalar text false, c.mark, after.mark⟩, after)

/-- Takes a plain scalar. A key may begin behind it if a line ended. -/
def takePlain (l : Lexer) : Except Fault Lexer := do
  let l ← l.saveSpot
  let start := l.mark
  let ((text, stop, broken), c) ← plain (l.flow != 0) l.indent l.limit l.cursor
  .ok ({ l with keyAllowed := broken }.accept (⟨.scalar text true, start, stop⟩, c))

/-- May a plain scalar begin here? -/
def startsPlain (l : Lexer) (x : Char) : Bool :=
  let c := l.cursor
  !("-?:,[]\x7b\x7d#&*!|>'\"%@`".toList.contains x || isSpace x || isBreak x) ||
    (x == '-' && !(c.ahead? 1).any isSpace) ||
    (l.flow == 0 && (x == '?' || x == ':') && !c.blankAhead 1)

/-- Takes the token that begins with `x`. -/
def takeToken (l : Lexer) (x : Char) : Except Fault Lexer :=
  let c := l.cursor
  let flow := l.flow != 0
  if c.mark.column = 0 ∧ x = '%' then l.takeDirective
  else if c.atDocumentMark then
    l.takeDocumentMark (if x = '-' then .documentStart else .documentEnd)
  else if x = '[' then l.openFlow .flowListStart
  else if x = '{' then l.openFlow .flowMapStart
  else if x = ']' then l.closeFlow .flowListEnd
  else if x = '}' then l.closeFlow .flowMapEnd
  else if x = ',' then l.takeFlowEntry
  else if x = '-' ∧ c.blankAhead 1 then l.takeBlockEntry
  else if x = '?' ∧ (flow ∨ c.blankAhead 1) then l.takeKey
  else if x = ':' ∧ (flow ∨ c.blankAhead 1) then l.takeValue
  else if x = '*' then l.takeWith (nameToken true)
  else if x = '&' then l.takeWith (nameToken false)
  else if x = '!' then l.takeWith (tagToken flow l.limit)
  else if x = '|' ∧ !flow then l.takeBlock true
  else if x = '>' ∧ !flow then l.takeBlock false
  else if x = '\'' then l.takeWith (quotedToken true l.limit)
  else if x = '"' then l.takeWith (quotedToken false l.limit)
  else if l.startsPlain x then l.takePlain
  else .error (.during .nextToken l.mark .noTokenStart l.mark)

/-- Reads one token further. -/
def advance (l : Lexer) : Except Fault Lexer := do
  let l ← (toNext l.limit l).dropStale
  let l := l.unrollIndent (Int.ofNat l.mark.column)
  match l.cursor.peek? with
  | none => l.takeEnd
  | some x => l.takeToken x

/-- May the first token of the queue still become a key? -/
def isPending (l : Lexer) : Bool :=
  l.spots.any fun spot? => spot?.any fun spot => spot.number == l.handed

/-- Reads on until the first token of the queue is settled. -/
def settle : Nat → Lexer → Except Fault Lexer
  | 0, l => .ok l
  | fuel + 1, l =>
    if l.queue.isEmpty then l.advance.bind (settle fuel)
    else do
      let l ← l.dropStale
      if l.isPending then l.advance.bind (settle fuel) else .ok l

/-- The tokens from a state on, last first, and the fault that ends them. -/
def tokens : Nat → List Token → Lexer → List Token × Option Fault
  | 0, read, _ => (read, none)
  | fuel + 1, read, l =>
    match l.settle l.limit with
    | .error e => (read, some e)
    | .ok l =>
      match l.queue with
      | [] => (read, none)
      | t :: queue =>
        if t.kind = .streamEnd then (t :: read, none)
        else tokens fuel (t :: read) { l with queue, handed := l.handed + 1 }

/-- The state at the start of a text. -/
def start (text : List Char) (limit : Nat) : Lexer :=
  { cursor := ⟨text, .origin⟩, queue := [⟨.streamStart, .origin, .origin⟩], handed := 0,
    ended := false, flow := 0, indent := -1, outer := [], keyAllowed := true, spots := [none],
    limit }

end Lexer

/-! ## 6. The tokens of a text -/

/-- The bytes before the first character that may not occur in a text, if there is one. -/
def forbiddenAt : List Char → Nat → Option Nat
  | [], _ => none
  | c :: rest, offset =>
    if isPermitted c then forbiddenAt rest (offset + c.utf8Size) else some offset

/-- The tokens of a text up to its end or its first fault. -/
def Token.scan (text : String) : List Token × Option Fault :=
  let chars := text.toList
  match forbiddenAt chars 0 with
  | some offset => ([], some ⟨.controlCharacter, .origin, offset, none⟩)
  | none =>
    let limit := chars.length + 4
    let (tokens, fault) := Lexer.tokens (4 * limit) [] (Lexer.start chars limit)
    (tokens.reverse, fault)

end RouteScaffold.Document.Yaml
