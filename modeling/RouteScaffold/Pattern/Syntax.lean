import RouteScaffold.Pattern.CharSet

/-!
# Patterns

A pattern describes pieces of a text: characters of a set, conditions on a place between characters (`Look`),
and what is made of patterns by sequence, choice and repetition.
-/

namespace RouteScaffold

/-! ## 1. Conditions on a place -/

/-- A condition on the characters before and behind a place. -/
inductive Look where
  | textStart
  | textEnd
  /-- Behind a line feed or at the start. -/
  | lineStart
  | lineEnd
  /-- The start of a line whose end may be written with a carriage return. -/
  | wideLineStart
  | wideLineEnd
  /-- Exactly one of the two characters belongs to the words. -/
  | boundary (w : CharSet)
  | noBoundary (w : CharSet)
  | wordStart (w : CharSet)
  | wordEnd (w : CharSet)
  /-- The character before does not belong to the words. -/
  | wordStartHalf (w : CharSet)
  | wordEndHalf (w : CharSet)

namespace Look

/-- Is a character there that is in the set? -/
def isIn (set : CharSet) (c? : Option Char) : Bool := c?.any set.holds

/-- Does the place between two characters meet the condition? -/
def holds : Look → Option Char → Option Char → Bool
  | textStart, before, _ => before.isNone
  | textEnd, _, next => next.isNone
  | lineStart, before, _ => before.all (· == '\n')
  | lineEnd, _, next => next.all (· == '\n')
  | wideLineStart, before, next =>
    before.all fun c => c == '\n' || (c == '\r' && !next.any (· == '\n'))
  | wideLineEnd, before, next =>
    next.all fun c => c == '\r' || (c == '\n' && !before.any (· == '\r'))
  | boundary w, before, next => isIn w before != isIn w next
  | noBoundary w, before, next => isIn w before == isIn w next
  | wordStart w, before, next => !isIn w before && isIn w next
  | wordEnd w, before, next => isIn w before && !isIn w next
  | wordStartHalf w, before, _ => !isIn w before
  | wordEndHalf w, _, next => !isIn w next

end Look

/-! ## 2. Patterns -/

/-- A pattern for a piece of a text. -/
inductive Pattern where
  | empty
  | one (set : CharSet)
  | look (l : Look)
  | sequence (p q : Pattern)
  | choice (p q : Pattern)
  /-- At least `low` pieces in a row, and at most `high`. -/
  | many (low : Nat) (high : Option Nat) (p : Pattern)

namespace Pattern

/-- A measure of how much a pattern asks for, all repetitions written out. -/
def weight : Pattern → Nat
  | empty => 1
  | one _ => 1
  | look _ => 1
  | sequence p q => p.weight + q.weight
  | choice p q => p.weight + q.weight + 1
  | many low none p => (max low 1) * p.weight + 1
  | many _ (some high) p => high * (p.weight + 1) + 1

/-- The largest weight of a pattern that may be used. -/
def weightLimit : Nat := 300000

end Pattern

end RouteScaffold
