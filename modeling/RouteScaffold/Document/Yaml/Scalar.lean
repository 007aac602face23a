import RouteScaffold.Decimal.Reading

/-!
# What a plain scalar means

A plain scalar is null, a truth value, an integer, a floating-point number or a text, by the core schema
of YAML 1.2 (`Scalar.resolve`). Digits with a leading zero are a text; `0x`, `0o` and `0b` introduce
other bases. A tag of the core schema asks for one of the kinds (`Scalar.ofTagged`).
-/

namespace RouteScaffold.Document.Yaml

/-- The value of a scalar. -/
inductive Scalar where
  | null
  | bool (value : Bool)
  | integer (value : Int)
  | float (value : Float)
  | text (value : String)
  deriving Inhabited

namespace Scalar

/-! ## 1. Null and truth values -/

/-- The spellings of null, but for the empty scalar. -/
def isNull (s : String) : Bool := s == "null" || s == "Null" || s == "NULL" || s == "~"

/-- The spellings of the truth values. -/
def bool? (s : String) : Option Bool :=
  if s == "true" || s == "True" || s == "TRUE" then some true
  else if s == "false" || s == "False" || s == "FALSE" then some false
  else none

/-! ## 2. Integers -/

/-- The value of a digit in a base up to sixteen. -/
def digit? (base : Nat) (c : Char) : Option Nat :=
  let value? :=
    if c.isDigit then some (c.toNat - '0'.toNat)
    else if 'a' ≤ c ∧ c ≤ 'f' then some (c.toNat - 'a'.toNat + 10)
    else if 'A' ≤ c ∧ c ≤ 'F' then some (c.toNat - 'A'.toNat + 10)
    else none
  value?.filter (· < base)

/-- The natural number that the digits write; there has to be one. -/
def natural? (base : Nat) (digits : List Char) : Option Nat :=
  if digits.isEmpty then none
  else (digits.mapM (digit? base)).map fun ds => ds.foldl (fun n d => n * base + d) 0

/-- Several digits of which the first is a zero, behind an optional sign. -/
def hasLeadingZero (s : List Char) : Bool :=
  let digits := (Decimal.takeSign s).2
  digits.length > 1 && digits.head? == some '0' && digits.all Char.isDigit

/-- The base that a text announces, and its digits. -/
def base? : List Char → Option (Nat × List Char)
  | '0' :: 'x' :: digits => some (16, digits)
  | '0' :: 'o' :: digits => some (8, digits)
  | '0' :: 'b' :: digits => some (2, digits)
  | _ => none

/-- The absolute value that a text without sign writes. -/
def unsigned? (s : List Char) : Option Nat :=
  match base? s with
  | some (base, digits) => natural? base digits
  | none => if hasLeadingZero s then none else natural? 10 s

/-- The integer that a text writes, of at most 128 bits. -/
def integer? (s : List Char) : Option Int :=
  match s with
  | '-' :: digits =>
    (unsigned? digits).bind fun n => if n ≤ Nat.pow 2 127 then some (-Int.ofNat n) else none
  | '+' :: digits => nonnegative digits
  | digits => nonnegative digits
where
  /-- An integer without a minus. -/
  nonnegative (digits : List Char) : Option Int :=
    (unsigned? digits).bind fun n => if n < Nat.pow 2 128 then some (Int.ofNat n) else none

/-! ## 3. Floating-point numbers -/

/-- Is it a spelling of infinity, without sign? -/
def isInfinity (s : String) : Bool := s == ".inf" || s == ".Inf" || s == ".INF"

/-- Is it a spelling of the number that is none? -/
def isNotANumber (s : String) : Bool := s == ".nan" || s == ".NaN" || s == ".NAN"

/-- The floating-point number that a text writes. A number beyond the range is written as infinity
only by name. -/
def float? (s : String) : Option Float :=
  let chars := s.toList
  let unsigned := if chars.head? = some '+' then chars.drop 1 else chars
  if chars.head? = some '+' ∧ (unsigned.head? = some '+' ∨ unsigned.head? = some '-') then none
  else if isInfinity (String.ofList unsigned) then some (1.0 / 0.0)
  else if chars.head? = some '-' ∧ isInfinity (String.ofList (chars.drop 1)) then some (-1.0 / 0.0)
  else if isNotANumber s then some (0.0 / 0.0)
  else (Decimal.read? unsigned).filter Float.isFinite

/-! ## 4. Resolution -/

/-- The value of a plain scalar without tag. -/
def resolve (s : String) : Scalar :=
  if s.isEmpty || isNull s then .null
  else
    match bool? s with
    | some b => .bool b
    | none =>
      match integer? s.toList with
      | some n => .integer n
      | none =>
        if hasLeadingZero s.toList then .text s
        else
          match float? s with
          | some x => .float x
          | none => .text s

/-- The prefix of the tags of the core schema. -/
def coreTag (name : String) : String := "tag:yaml.org,2002:" ++ name

/-- The value of a scalar by its tag, or what the tag asks for if the text is none. A local tag and no
tag leave a plain scalar to `resolve`; every other scalar is a text. -/
def ofTagged (tag : Option String) (plain : Bool) (s : String) : Except String Scalar :=
  match tag with
  | none => .ok (if plain then resolve s else .text s)
  | some tag =>
    if tag = coreTag "bool" then orElse ((bool? s).map .bool) "a boolean"
    else if tag = coreTag "int" then orElse ((integer? s.toList).map .integer) "an integer"
    else if tag = coreTag "float" then orElse ((float? s).map .float) "a float"
    else if tag = coreTag "null" then (if isNull s then .ok .null else .error "null")
    else .ok (if tag.startsWith "!" && plain then resolve s else .text s)
where
  /-- A value, or what was expected. -/
  orElse (value? : Option Scalar) (expected : String) : Except String Scalar :=
    match value? with
    | some value => .ok value
    | none => .error expected

end Scalar

end RouteScaffold.Document.Yaml
