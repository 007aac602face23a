import RouteScaffold.Pattern.Read

/-!
# Searching a text

A pattern is found in a text if it fits some piece of it. `Pattern.ends` takes all places at once at which a piece may
begin and gives all places at which a fitting piece may end, each once. A repetition goes on only from places that it
has not reached before, so a search is short whatever the pattern.

Which names a pattern fits is asked of an engine (`PatternEngine`). Nothing is assumed of which texts an engine takes
for patterns; the one of this library reads them with `Pattern.read?`.
-/

namespace RouteScaffold

/-! ## 1. Places -/

/-- A place in a text: how many characters are before it, the last of them, and the text behind it. -/
structure Spot where
  place : Nat
  before : Option Char
  rest : List Char

namespace Spot

/-- The places of a text from one on, with that one. -/
def spotsFrom (place : Nat) (before : Option Char) : List Char → List Spot
  | [] => [⟨place, before, []⟩]
  | c :: rest => ⟨place, before, c :: rest⟩ :: spotsFrom (place + 1) (some c) rest

/-- All places of a text. -/
def spots (text : List Char) : List Spot := spotsFrom 0 none text

/-- Is the place among these? -/
def isAmong (s : Spot) (found : List Spot) : Bool := found.any (·.place == s.place)

/-- The places of the second list that are not in the first. -/
def newIn (found next : List Spot) : List Spot := next.filter fun s => !s.isAmong found

/-- The place behind the next character, if that is in a set. -/
def step? (set : CharSet) (s : Spot) : Option Spot :=
  match s.rest with
  | c :: rest => if set.holds c then some ⟨s.place + 1, some c, rest⟩ else none
  | [] => none

end Spot

namespace Pattern

/-! ## 2. Repetition -/

/-- The places reached by exactly so many steps. -/
def after (step : List Spot → List Spot) : Nat → List Spot → List Spot
  | 0, places => places
  | n + 1, places => after step n (step places)

/-- The places reached by at most so many steps: the ones found, and what is reached from the last of them. -/
def within (step : List Spot → List Spot) : Nat → List Spot → List Spot → List Spot
  | 0, found, _ => found
  | n + 1, found, last =>
    let next := Spot.newIn found (step last)
    if next.isEmpty then found else within step n (found ++ next) next

/-- A number of steps that suffices to reach from some places all that can be reached: each step but the last reaches
a new place behind them. -/
def enough (places : List Spot) : Nat := places.foldl (fun n s => max n s.rest.length) 0 + 1

/-! ## 3. Search -/

/-- Where a piece that fits may end, if it begins at one of some places. -/
def ends : Pattern → List Spot → List Spot
  | empty, places => places
  | one set, places => places.filterMap (Spot.step? set)
  | look l, places => places.filter fun s => l.holds s.before s.rest.head?
  | sequence p q, places => q.ends (p.ends places)
  | choice p q, places =>
    let left := p.ends places
    left ++ Spot.newIn left (q.ends places)
  | many low high p, places =>
    let least := after p.ends low places
    let more := match high with
      | some high => min (high - low) (enough least)
      | none => enough least
    within p.ends more least least

/-- Does the pattern fit some piece of the text? -/
def isIn (p : Pattern) (text : String) : Bool := !(p.ends (Spot.spots text.toList)).isEmpty

end Pattern

/-! ## 4. Engines -/

/-- An engine for patterns: reads a text as a pattern, which says of a name whether it fits, or tells why it is none. -/
structure PatternEngine where
  compile : String → Except String (String → Bool)

/-- The engine that reads patterns as `Pattern.read?` does. -/
def PatternEngine.standard : PatternEngine where
  compile text :=
    match Pattern.read? text with
    | some pattern => .ok pattern.isIn
    | none => .error "not a pattern"

theorem PatternEngine.compile_standard {text : String} {pattern : Pattern} (h : Pattern.read? text = some pattern) :
    standard.compile text = .ok pattern.isIn := by
  unfold standard
  dsimp only
  rw [h]

end RouteScaffold
