import RouteScaffold.Decimal.Binary64

/-!
# Reading decimal numbers

`Decimal.read?` reads the text of a decimal number, such as `-1.5e3`, as the nearest number with 64
binary places. There has to be a digit; the point and the exponent may be absent.
-/

namespace RouteScaffold.Decimal

/-- The value of a run of decimal digits. -/
def valueOf (digits : List Char) : Nat :=
  digits.foldl (fun n d => n * 10 + (d.toNat - '0'.toNat)) 0

/-- A sign in front, if there is one: is it a minus, and what follows. -/
def takeSign : List Char → Bool × List Char
  | '-' :: rest => (true, rest)
  | '+' :: rest => (false, rest)
  | rest => (false, rest)

/-- Digits, point and digits in front of a text: the digits, how many stand behind the point, and what
follows. -/
def takeDigits (s : List Char) : List Char × Nat × List Char :=
  let whole := s.takeWhile Char.isDigit
  match s.drop whole.length with
  | '.' :: rest =>
    let fraction := rest.takeWhile Char.isDigit
    (whole ++ fraction, fraction.length, rest.drop fraction.length)
  | rest => (whole, 0, rest)

/-- Reads an exponent that ends the text; the empty text is the exponent zero. -/
def exponent? : List Char → Option Int
  | [] => some 0
  | c :: rest =>
    if c = 'e' ∨ c = 'E' then
      let (down, digits) := takeSign rest
      if digits.isEmpty || !digits.all Char.isDigit then none
      else some (if down then -Int.ofNat (valueOf digits) else Int.ofNat (valueOf digits))
    else none

/-- Scales digits by a power of ten. Powers far beyond the range are not computed: every number of
`n` digits with a greatest exponent above 400 is infinite, and one below -400 is zero. -/
def scaled (digits : List Char) (exponent : Int) : Float :=
  let digits := digits.dropWhile (· == '0')
  let top := Int.ofNat digits.length + exponent
  if digits.isEmpty then 0.0
  else if 400 < top then 1.0 / 0.0
  else if top < -400 then 0.0
  else nearest (valueOf digits) exponent

/-- The number that a text writes, if it writes one. -/
def read? (text : List Char) : Option Float := do
  let (negative, rest) := takeSign text
  let (digits, places, rest) := takeDigits rest
  if digits.isEmpty then none
  else
    let e ← exponent? rest
    let x := scaled digits (e - Int.ofNat places)
    some (if negative then -x else x)

end RouteScaffold.Decimal
