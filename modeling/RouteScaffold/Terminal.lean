/-!
# Text on a terminal

Parts of what a run prints have a color and may be bold. `Palette` says whether a text is written with the codes
that tell a terminal so; without them it is written as it is.
-/

namespace RouteScaffold

/-- The colors of what is printed. -/
inductive Color where
  | grey
  | red
  | green
  | yellow
  | cyan
  deriving DecidableEq, Repr

/-- The number of a color among those of a terminal. -/
def Color.number : Color → Nat
  | .grey => 8
  | .red => 9
  | .green => 10
  | .yellow => 11
  | .cyan => 14

/-- How colors are written. -/
inductive Palette where
  /-- Text only. -/
  | plain
  /-- Codes, in which no color is named. -/
  | muted
  | colored
  deriving DecidableEq, Repr

namespace Palette

/-- A code for a terminal. -/
def code (body : String) : String := "\x1b[" ++ body ++ "m"

/-- The code that begins a color. -/
def begin_ (p : Palette) (color : Color) : String :=
  match p with
  | .plain => ""
  | .muted => code ""
  | .colored => code s!"38;5;{color.number}"

/-- The code behind a color. -/
def end_ : Palette → String
  | .plain => ""
  | .muted => code ""
  | .colored => code "39"

/-- A text in a color. -/
def paint (p : Palette) (color : Color) (text : String) : String := p.begin_ color ++ text ++ p.end_

/-- A text in a color and bold. -/
def bold (p : Palette) (color : Color) (text : String) : String :=
  match p with
  | .plain => text
  | p => p.begin_ color ++ code "1" ++ text ++ code "0"

end Palette

end RouteScaffold
