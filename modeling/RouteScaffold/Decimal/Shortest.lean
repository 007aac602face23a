/-!
# The shortest decimal of a binary fraction

`shortest m q` is the decimal `d · 10^p` with the fewest digits that lies in the interval of the
numbers which round to `m · 2^q`, and among those the one nearest to it; a tie goes to the even
digit. The interval holds its ends exactly when `m` is even. All arithmetic is exact on natural
numbers.
-/

namespace RouteScaffold.Decimal

/-- A decimal `digits · 10^exponent`. -/
structure Scaled where
  digits : Nat
  exponent : Int
  deriving DecidableEq, Repr

/-! ## 1. The interval of a binary fraction -/

/-- A number between two others, all three over one denominator. -/
structure Interval where
  low : Nat
  value : Nat
  high : Nat
  denominator : Nat
  closed : Bool

/-- The numbers that round to `m · 2^q`. The lower half is half as wide at a power of two, unless
that power is the least (`narrow` says which). -/
def interval (m : Nat) (q : Int) (narrow : Bool) : Interval :=
  let scale := Nat.pow 2 q.toNat
  let denominator := 4 * Nat.pow 2 (-q).toNat
  { low := (4 * m - (if narrow then 1 else 2)) * scale
    value := 4 * m * scale
    high := (4 * m + 2) * scale
    denominator
    closed := m % 2 == 0 }

/-- Does the decimal lie in the interval? -/
def Interval.holds (i : Interval) (d : Scaled) : Bool :=
  let left := d.digits * Nat.pow 10 d.exponent.toNat * i.denominator
  let below := Nat.pow 10 (-d.exponent).toNat
  if i.closed then i.low * below ≤ left && left ≤ i.high * below
  else i.low * below < left && left < i.high * below

/-! ## 2. The search over the number of digits -/

/-- The neighbours of the value on the grid of multiples of `10^exponent`, with the distances of
the value from both. -/
def Interval.neighbours (i : Interval) (exponent : Int) : Nat × Nat × Nat :=
  let unit := Nat.pow 10 exponent.toNat * i.denominator
  let value := i.value * Nat.pow 10 (-exponent).toNat
  (value / unit, value % unit, unit - value % unit)

/-- The better neighbour on the grid that lies in the interval, if one does. -/
def Interval.onGrid? (i : Interval) (exponent : Int) : Option Scaled :=
  let (d, below, above) := i.neighbours exponent
  let down : Scaled := ⟨d, exponent⟩
  let up : Scaled := ⟨d + 1, exponent⟩
  match i.holds down, i.holds up with
  | true, true =>
    if below < above || (below == above && d % 2 == 0) then some down else some up
  | true, false => some down
  | false, true => some up
  | false, false => none

/-- The least `e` with `value < 10^e`, counted up from `start`. -/
def Interval.magnitude (i : Interval) : Nat → Int → Int
  | 0, e => e
  | fuel + 1, e =>
    if i.value * Nat.pow 10 (-e).toNat < Nat.pow 10 e.toNat * i.denominator then e
    else i.magnitude fuel (e + 1)

/-- The first grid with a decimal in the interval, from coarse to fine. -/
def Interval.search (i : Interval) : Nat → Int → Scaled
  | 0, e => ⟨(i.neighbours e).1, e⟩
  | fuel + 1, e =>
    match i.onGrid? e with
    | some d => d
    | none => i.search fuel (e - 1)

/-- Ten is taken out of the digits as often as it divides them. -/
def Scaled.stripped : Nat → Scaled → Scaled
  | 0, d => d
  | fuel + 1, d =>
    if d.digits ≠ 0 ∧ d.digits % 10 = 0 then stripped fuel ⟨d.digits / 10, d.exponent + 1⟩ else d

/-- The shortest decimal of `m · 2^q`. -/
def shortest (m : Nat) (q : Int) (narrow : Bool) : Scaled :=
  let i := interval m q narrow
  let top := i.magnitude 700 (-330)
  (i.search 18 (top - 1)).stripped 20

end RouteScaffold.Decimal
