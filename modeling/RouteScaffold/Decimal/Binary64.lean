import RouteScaffold.Decimal.Shortest

/-!
# Text of a number with 64 binary places

The number formats of a document write a floating-point number with the fewest digits that read
back (`Decimal.shortest`), positionally below `10^16` and from `10^-5` on, else with an exponent.
-/

namespace RouteScaffold.Decimal

/-- Digits of a natural number in base ten. -/
def digitsOf (n : Nat) : List Char := Nat.toDigits 10 n

/-- How a number is laid out. -/
structure Layout where
  /-- Exponents of the first digit from here on are written positionally. -/
  least : Int
  /-- Exponents of the first digit up to here are written positionally. -/
  greatest : Int

/-- The layout of the numbers of a document. -/
def documentLayout : Layout := ⟨-5, 15⟩

/-- `n` zeros. -/
def zeros (n : Nat) : List Char := List.replicate n '0'

/-- The exponent with its sign. -/
def exponentText (e : Int) : List Char := (if e < 0 then '-' else '+') :: digitsOf e.natAbs

/-- The text of a positive decimal. -/
def Layout.write (l : Layout) (d : Scaled) : List Char :=
  let ds := digitsOf d.digits
  let top := d.exponent + ds.length - 1
  if l.least ≤ top ∧ top ≤ l.greatest then
    if 0 ≤ d.exponent then ds ++ zeros d.exponent.toNat ++ ['.', '0']
    else if 0 ≤ top then ds.take (top.toNat + 1) ++ '.' :: ds.drop (top.toNat + 1)
    else '0' :: '.' :: (zeros ((-top).toNat - 1) ++ ds)
  else
    match ds with
    | [] => []
    | [c] => c :: 'e' :: exponentText top
    | c :: rest => c :: '.' :: rest ++ 'e' :: exponentText top

/-- Sign, mantissa and exponent of a finite number: it is `± mantissa · 2^exponent`. -/
def parts (x : Float) : Bool × Nat × Int :=
  let bits := x.toBits.toNat
  let fraction := bits % Nat.pow 2 52
  let exponent := bits / Nat.pow 2 52 % Nat.pow 2 11
  let sign := bits / Nat.pow 2 63 == 1
  if exponent == 0 then (sign, fraction, -1074)
  else (sign, fraction + Nat.pow 2 52, Int.ofNat exponent - 1075)

/-- The text of a finite number in a document. -/
def text (x : Float) : String :=
  let (sign, m, q) := parts x
  let digits :=
    if m == 0 then ['0', '.', '0']
    else documentLayout.write (shortest m q (m == Nat.pow 2 52 && -1074 < q))
  String.ofList (if sign then '-' :: digits else digits)

/-- The number nearest to `digits · 10^exponent`; a tie goes to the even mantissa. -/
def nearest (digits : Nat) (exponent : Int) : Float :=
  if 0 ≤ exponent then Float.ofScientific digits false exponent.toNat
  else Float.ofScientific digits true (-exponent).toNat

end RouteScaffold.Decimal
