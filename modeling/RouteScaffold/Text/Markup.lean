import RouteScaffold.Text.Blank
import RouteScaffold.Text.Quoted

/-!
# Text within markup

Two ways to write a foreign text into markup: with the characters that markup gives a meaning replaced by
references (`escapeMarkup`), and as the children of a JSX element (`jsxText`), where a text that JSX would
not take as it is becomes a string expression.
-/

namespace RouteScaffold.Text

/-! ## 1. References -/

/-- The reference that stands for a character of markup, if it needs one. -/
def markupReference? (c : Char) : Option String :=
  if c = '&' then some "&amp;"
  else if c = '<' then some "&lt;"
  else if c = '>' then some "&gt;"
  else if c = '"' then some "&quot;"
  else if c = '\'' then some "&#x27;"
  else if c.toNat = 0x60 then some "&#x60;"
  else if c = '=' then some "&#x3D;"
  else none

/-- The text with references for the characters of markup. -/
def escapeMarkup (s : String) : String :=
  String.ofList (s.toList.flatMap fun c => ((markupReference? c).map String.toList).getD [c])

/-! ## 2. JSX children -/

/-- The characters that JSX interprets or normalises within children. -/
def isJsxSpecial (c : Char) : Bool :=
  c == '{' || c == '}' || c == '<' || c == '>' || c == '&' || c == '"' || c == '\'' || c == '\\' ||
    isControl c

/-- Does JSX take the text as it is? -/
def isJsxPlain (s : String) : Bool :=
  !s.isEmpty && trim s == s && !s.toList.any isJsxSpecial

/-- The text as JSX children. -/
def jsxText (s : String) : String := if isJsxPlain s then s else "\x7b" ++ quote s ++ "\x7d"

/-! ## 3. Lines -/

/-- Lines as a text, each with its line end. -/
def unlines (lines : List String) : String := String.join (lines.map (· ++ "\n"))

end RouteScaffold.Text
