import RouteScaffold.Document
import RouteScaffold.Decimal.Binary64

/-!
# Reading JSON

`Json.read` reads a text as one JSON value. The first fault ends the reading; it is reported by its
cause (`Fault`) and by the number of bytes before it, from which line and column follow
(`Position`). Values nest at most 127 deep. Of two entries of a mapping with one key the later wins.
A number that is no integer of 64 bits is a floating-point number: the leading digits that fit 64
bits, scaled once by a power of ten.
-/

namespace RouteScaffold.Document.Json

/-! ## 1. Faults and positions -/

/-- Why a text is not JSON. -/
inductive Fault where
  | endInValue
  | endInObject
  | endInList
  | endInText
  | noValue
  | wrongWord
  | noColon
  | noListEnd
  | noObjectEnd
  | keyNotText
  | trailingComma
  | trailingCharacters
  | badNumber
  | numberTooLarge
  | badEscape
  | controlCharacter
  | unpairedSurrogate
  | endOfEscape
  | tooDeep
  deriving DecidableEq, Repr

/-- The wording of a fault. -/
def Fault.message : Fault → String
  | .endInValue => "EOF while parsing a value"
  | .endInObject => "EOF while parsing an object"
  | .endInList => "EOF while parsing a list"
  | .endInText => "EOF while parsing a string"
  | .noValue => "expected value"
  | .wrongWord => "expected ident"
  | .noColon => "expected `:`"
  | .noListEnd => "expected `,` or `]`"
  | .noObjectEnd => "expected `,` or `\x7d`"
  | .keyNotText => "key must be a string"
  | .trailingComma => "trailing comma"
  | .trailingCharacters => "trailing characters"
  | .badNumber => "invalid number"
  | .numberTooLarge => "number out of range"
  | .badEscape => "invalid escape"
  | .controlCharacter => "control character (\\u0000-\\u001F) found while parsing a string"
  | .unpairedSurrogate => "lone leading surrogate in hex escape"
  | .endOfEscape => "unexpected end of hex escape"
  | .tooDeep => "recursion limit exceeded"

/-- A fault and the number of bytes before it. -/
structure Error where
  fault : Fault
  offset : Nat
  deriving DecidableEq, Repr

/-- A line and a column; lines count from one, columns are the bytes passed in the line. -/
structure Position where
  line : Nat
  column : Nat
  deriving DecidableEq, Repr

/-- The position after `offset` bytes. `passed` bytes were read, the line began at `start`. -/
def positionFrom : List Char → (offset passed line start : Nat) → Position
  | [], offset, _, line, start => ⟨line, offset - start⟩
  | c :: rest, offset, passed, line, start =>
    if offset ≤ passed then ⟨line, offset - start⟩
    else if c = '\n' then positionFrom rest offset (passed + 1) (line + 1) (passed + 1)
    else positionFrom rest offset (passed + c.utf8Size) line start

/-- The position after `offset` bytes of a text. -/
def positionAt (text : String) (offset : Nat) : Position :=
  positionFrom text.toList offset 0 1 0

/-- The error as a sentence, with its position in the text that was read. -/
def Error.message (text : String) (e : Error) : String :=
  let p := positionAt text e.offset
  s!"{e.fault.message} at line {p.line} column {p.column}"

/-! ## 2. The text that is left -/

/-- The characters to read and the bytes that were read. -/
structure Cursor where
  rest : List Char
  offset : Nat

/-- A reading step: a result and what is left, or the first fault. -/
abbrev Step (α : Type) := Cursor → Except Error (α × Cursor)

/-- A fault at the bytes read. -/
def Cursor.fail {α : Type} (c : Cursor) (fault : Fault) : Except Error α :=
  .error ⟨fault, c.offset⟩

/-- A fault at the next byte, or at the end when nothing is left. -/
def Cursor.failNext {α : Type} (c : Cursor) (fault : Fault) : Except Error α :=
  .error ⟨fault, if c.rest.isEmpty then c.offset else c.offset + 1⟩

/-- One character further. -/
def Cursor.next (c : Cursor) : Cursor :=
  match c.rest with
  | [] => c
  | x :: rest => ⟨rest, c.offset + x.utf8Size⟩

/-- Skips spaces, tabs and line ends. -/
def skipBlank : List Char → Nat → Cursor
  | [], offset => ⟨[], offset⟩
  | c :: rest, offset =>
    if c = ' ' ∨ c = '\n' ∨ c = '\t' ∨ c = '\r' then skipBlank rest (offset + 1)
    else ⟨c :: rest, offset⟩

/-- The cursor behind blanks. -/
def Cursor.skip (c : Cursor) : Cursor := skipBlank c.rest c.offset

/-! ## 3. Words and numbers -/

/-- Reads the rest of a word such as `null`. -/
def word (value : Document) : List Char → Step Document
  | [], c => .ok (value, c)
  | expected :: more, c =>
    match c.rest with
    | [] => c.fail .endInValue
    | x :: _ => if x = expected then word value more c.next else c.next.fail .wrongWord

/-- The greatest unsigned integer of 64 bits. -/
def maxUnsigned : Nat := Nat.pow 2 64 - 1

/-- The leading digits that fit 64 bits, with the power of ten they are to be scaled by. -/
structure Significand where
  digits : Nat
  exponent : Int
  /-- No further digit is taken. -/
  full : Bool

/-- The value of a digit. -/
def digitValue (c : Char) : Nat := c.toNat - '0'.toNat

/-- Takes a digit before the point. -/
def Significand.whole (s : Significand) (c : Char) : Significand :=
  let d := s.digits * 10 + digitValue c
  if s.full then { s with exponent := s.exponent + 1 }
  else if d ≤ maxUnsigned then { s with digits := d }
  else { s with exponent := s.exponent + 1, full := true }

/-- Takes a digit behind the point. -/
def Significand.fraction (s : Significand) (c : Char) : Significand :=
  let d := s.digits * 10 + digitValue c
  if s.full then s
  else if d ≤ maxUnsigned then { s with digits := d, exponent := s.exponent - 1 }
  else { s with full := true }

/-- Scales a number by a power of ten, in steps of at most `10^308`. None if it becomes infinite. -/
def scale : Nat → Float → Int → Option Float
  | 0, f, _ => some f
  | fuel + 1, f, e =>
    if e.natAbs ≤ 308 then
      if 0 ≤ e then
        let r := f * Float.ofScientific 1 false e.toNat
        if r.isInf then none else some r
      else some (f / Float.ofScientific 1 false (-e).toNat)
    else if f == 0.0 then some f
    else if 0 ≤ e then none
    else scale fuel (f / Float.ofScientific 1 false 308) (e + 308)

/-- The floating-point number of a significand. -/
def float (negative : Bool) (digits : Nat) (exponent : Int) (c : Cursor) :
    Except Error (Document × Cursor) :=
  match scale 8 (Float.ofNat digits) exponent with
  | some f => .ok (.float (if negative then -f else f), c)
  | none => c.fail .numberTooLarge

/-- Splits the digits off the front of a text. -/
def spanDigits (c : Cursor) : List Char × Cursor :=
  let ds := c.rest.takeWhile Char.isDigit
  (ds, ⟨c.rest.drop ds.length, c.offset + ds.length⟩)

/-- The greatest exponent that is read, and the limits of the scaling exponent. -/
def maxExponent : Nat := Nat.pow 2 31 - 1

/-- Holds a scaling exponent within 32 bits. -/
def clampExponent (e : Int) : Int := max (-Int.ofNat (Nat.pow 2 31)) (min e (Int.ofNat maxExponent))

/-- Reads the digits of an exponent; none when it does not fit, with what is left behind the digit
that was too much. -/
def exponentValue : List Char → Nat → Cursor → Option Nat × Cursor
  | [], value, c => (some value, c)
  | x :: more, value, c =>
    let v := value * 10 + digitValue x
    if v ≤ maxExponent then exponentValue more v c.next else (none, c.next)

/-- Reads an exponent; the cursor stands at its `e`. -/
def exponent (negative : Bool) (s : Significand) (c : Cursor) :
    Except Error (Document × Cursor) :=
  let c := c.next
  let (down, c) :=
    match c.rest with
    | '+' :: _ => (false, c.next)
    | '-' :: _ => (true, c.next)
    | _ => (false, c)
  match c.rest with
  | [] => c.fail .endInValue
  | x :: _ =>
    if x.isDigit then
      match exponentValue (c.rest.takeWhile Char.isDigit) 0 c with
      | (some e, c) =>
        let shift : Int := if down then -(e : Int) else e
        float negative s.digits (clampExponent (s.exponent + shift)) c
      | (none, c) =>
        if s.digits ≠ 0 ∧ down = false then c.fail .numberTooLarge
        else .ok (.float (if negative then -0.0 else 0.0), (spanDigits c).2)
    else c.next.fail .badNumber

/-- Reads what may follow the digits before the point. -/
def numberTail (negative : Bool) (s : Significand) (c : Cursor) :
    Except Error (Document × Cursor) :=
  match c.rest with
  | '.' :: _ =>
    let (ds, c) := spanDigits c.next
    if ds.isEmpty then
      c.failNext (if c.rest.isEmpty then .endInValue else .badNumber)
    else
      let s := ds.foldl Significand.fraction { s with full := false }
      match c.rest with
      | x :: _ =>
        if x = 'e' ∨ x = 'E' then exponent negative s c else float negative s.digits s.exponent c
      | [] => float negative s.digits s.exponent c
  | x :: _ =>
    if x = 'e' ∨ x = 'E' then exponent negative s c else whole c
  | [] => whole c
where
  /-- A number without point and exponent is an integer, if it has one of 64 bits. -/
  whole (c : Cursor) : Except Error (Document × Cursor) :=
    if s.full then float negative s.digits s.exponent c
    else if negative then
      if s.digits = 0 ∨ Nat.pow 2 63 < s.digits then float true s.digits 0 c
      else .ok (.integer (-s.digits), c)
    else .ok (.integer s.digits, c)

/-- Reads a number behind its sign. -/
def number (negative : Bool) (c : Cursor) : Except Error (Document × Cursor) :=
  match c.rest with
  | [] => c.fail .endInValue
  | '0' :: rest =>
    match rest with
    | x :: _ =>
      if x.isDigit then c.next.failNext .badNumber
      else numberTail negative ⟨0, 0, false⟩ c.next
    | [] => numberTail negative ⟨0, 0, false⟩ c.next
  | x :: _ =>
    if x.isDigit then
      let (ds, c) := spanDigits c
      numberTail negative (ds.foldl Significand.whole ⟨0, 0, false⟩) c
    else c.next.fail .badNumber

/-! ## 4. Texts -/

/-- The value of a hexadecimal digit. -/
def hexValue? (c : Char) : Option Nat :=
  if c.isDigit then some (c.toNat - '0'.toNat)
  else if 'a' ≤ c ∧ c ≤ 'f' then some (c.toNat - 'a'.toNat + 10)
  else if 'A' ≤ c ∧ c ≤ 'F' then some (c.toNat - 'A'.toNat + 10)
  else none

/-- Reads four hexadecimal digits. An escape takes four bytes whatever they hold. -/
def hex4 (c : Cursor) : Except Error (Nat × Cursor) :=
  let bytes := (c.rest.take 4).foldl (fun n x => n + x.utf8Size) 0
  if bytes < 4 then .error ⟨.endInText, c.offset + bytes⟩
  else
    match (c.rest.take 4).mapM hexValue? with
    | some ds => .ok (ds.foldl (fun n d => n * 16 + d) 0, ⟨c.rest.drop 4, c.offset + 4⟩)
    | none => .error ⟨.badEscape, c.offset + 4⟩

/-- Reads the escape of a code point; the cursor stands behind `\u`. The two halves of a pair of
surrogates come as two escapes. -/
def codePoint (c : Cursor) : Except Error (Char × Cursor) := do
  let (n, c) ← hex4 c
  if 0xDC00 ≤ n ∧ n ≤ 0xDFFF then c.fail .unpairedSurrogate
  else if n < 0xD800 ∨ 0xDBFF < n then .ok (Char.ofNat n, c)
  else
    match c.rest with
    | [] => c.fail .endInText
    | '\\' :: more =>
      match more with
      | [] => c.next.fail .endInText
      | 'u' :: _ =>
        let (low, c) ← hex4 c.next.next
        if low < 0xDC00 ∨ 0xDFFF < low then c.fail .unpairedSurrogate
        else .ok (Char.ofNat ((n - 0xD800) * 0x400 + (low - 0xDC00) + 0x10000), c)
      | _ => .error ⟨.endOfEscape, c.next.offset + 1⟩
    | _ => .error ⟨.endOfEscape, c.offset + 1⟩

/-- The character of a short escape. -/
def shortEscape? (c : Char) : Option Char :=
  match c with
  | '"' => some '"'
  | '\\' => some '\\'
  | '/' => some '/'
  | 'b' => some '\x08'
  | 'f' => some '\x0c'
  | 'n' => some '\n'
  | 'r' => some '\r'
  | 't' => some '\t'
  | _ => none

/-- Reads a text behind its opening quote; `read` holds the characters so far, last first. -/
def textTail : Nat → List Char → Step String
  | 0, _, c => c.fail .endInText
  | fuel + 1, read, c =>
    match c.rest with
    | [] => c.fail .endInText
    | '"' :: _ => .ok (String.ofList read.reverse, c.next)
    | '\\' :: more =>
      match more with
      | [] => c.next.fail .endInText
      | 'u' :: _ =>
        match codePoint c.next.next with
        | .ok (x, c) => textTail fuel (x :: read) c
        | .error e => .error e
      | x :: _ =>
        match shortEscape? x with
        | some y => textTail fuel (y :: read) c.next.next
        | none => .error ⟨.badEscape, c.next.offset + 1⟩
    | x :: _ =>
      if x.toNat < 0x20 then c.next.fail .controlCharacter
      else textTail fuel (x :: read) c.next

/-- Reads a text; the cursor stands at its opening quote. -/
def text : Step String := fun c => textTail (c.rest.length + 1) [] c.next

/-! ## 5. Lists, mappings and values -/

/-- Reads list items up to the closing bracket. -/
def items (element : Step Document) : Nat → Bool → List Document → Step (List Document)
  | 0, _, _, c => c.failNext .endInList
  | fuel + 1, first, read, c =>
    let c := c.skip
    match c.rest with
    | [] => c.failNext .endInList
    | ']' :: _ => .ok (read.reverse, c.next)
    | x :: _ =>
      if first then item fuel read c
      else if x = ',' then
        let c := c.next.skip
        match c.rest with
        | [] => c.failNext .endInValue
        | ']' :: _ => c.failNext .trailingComma
        | _ => item fuel read c
      else c.failNext .noListEnd
where
  /-- Reads one item and the items behind it. -/
  item (fuel : Nat) (read : List Document) (c : Cursor) :
      Except Error (List Document × Cursor) :=
    match element c with
    | .ok (value, c) => items element fuel false (value :: read) c
    | .error e => .error e

/-- Reads the entries of a mapping up to the closing brace. -/
def entries (element : Step Document) : Nat → Bool → Fields → Step Fields
  | 0, _, _, c => c.failNext .endInObject
  | fuel + 1, first, read, c =>
    let c := c.skip
    match c.rest with
    | [] => c.failNext .endInObject
    | '}' :: _ => .ok (read.reverse, c.next)
    | x :: _ =>
      if first then entry fuel read c
      else if x = ',' then entry fuel read c.next.skip
      else c.failNext .noObjectEnd
where
  /-- Reads one entry and the entries behind it. -/
  entry (fuel : Nat) (read : Fields) (c : Cursor) : Except Error (Fields × Cursor) :=
    match c.rest with
    | [] => c.failNext .endInValue
    | '}' :: _ => c.failNext .trailingComma
    | '"' :: _ =>
      match text c with
      | .error e => .error e
      | .ok (key, c) =>
        let c := c.skip
        match c.rest with
        | [] => c.failNext .endInObject
        | ':' :: _ =>
          match element c.next with
          | .ok (value, c) => entries element fuel false ((key, value) :: read) c
          | .error e => .error e
        | _ => c.failNext .noColon
    | _ => c.failNext .keyNotText

/-- Reads a value that may hold lists and mappings `depth - 1` deep. -/
def value : Nat → Step Document
  | depth, c =>
    let c := c.skip
    match c.rest with
    | [] => c.failNext .endInValue
    | 'n' :: _ => word .null ['u', 'l', 'l'] c.next
    | 't' :: _ => word (.bool true) ['r', 'u', 'e'] c.next
    | 'f' :: _ => word (.bool false) ['a', 'l', 's', 'e'] c.next
    | '-' :: _ => number true c.next
    | '"' :: _ => (text c).map fun (s, c) => (.text s, c)
    | '[' :: _ =>
      match depth with
      | inner + 2 =>
        (items (value (inner + 1)) (c.rest.length + 1) true [] c.next).map fun (vs, c) => (.list vs, c)
      | _ => c.failNext .tooDeep
    | '{' :: _ =>
      match depth with
      | inner + 2 =>
        (entries (value (inner + 1)) (c.rest.length + 1) true [] c.next).map fun (fs, c) =>
          (.map (Fields.ofEntries fs), c)
      | _ => c.failNext .tooDeep
    | x :: _ => if x.isDigit then number false c else c.failNext .noValue

/-- How deep values may nest, the outermost value counted. -/
def depthLimit : Nat := 128

/-- Reads a text as one value with nothing behind it. -/
def read (source : String) : Except Error Document :=
  match value depthLimit ⟨source.toList, 0⟩ with
  | .error e => .error e
  | .ok (v, c) =>
    let c := c.skip
    if c.rest.isEmpty then .ok v else c.failNext .trailingCharacters

end RouteScaffold.Document.Json
