import RouteScaffold.Text.Blank
import RouteScaffold.Text.Category
import RouteScaffold.Text.Folding

/-!
# Sets of characters

A set is a range, a class of characters, or made of sets; `CharSet.holds` decides membership. The lists of
named sets say which names a pattern may use: the classes of ASCII (`ascii?`) and the properties of Unicode
(`property?`).
-/

namespace RouteScaffold

/-- A set of characters. -/
inductive CharSet where
  | nothing
  | range (first last : Char)
  | blank
  | decimal
  | word
  /-- The characters of some general categories. -/
  | categories (ks : List Text.Category)
  | union (a b : CharSet)
  | inter (a b : CharSet)
  | diff (a b : CharSet)
  /-- What is in exactly one of two sets. -/
  | either (a b : CharSet)
  | compl (a : CharSet)
  /-- All forms of the letters in a set. -/
  | folded (a : CharSet)

namespace CharSet

/-! ## 1. Membership -/

/-- Is the character in the set? -/
def holds : CharSet → Char → Bool
  | nothing, _ => false
  | range first last, c => first ≤ c && c ≤ last
  | blank, c => Text.isBlank c
  | decimal, c => Text.isDecimal c
  | word, c => Text.isWord c
  | categories ks, c => Text.isOf ks c
  | union a b, c => a.holds c || b.holds c
  | inter a b, c => a.holds c && b.holds c
  | diff a b, c => a.holds c && !b.holds c
  | either a b, c => a.holds c != b.holds c
  | compl a, c => !a.holds c
  | folded a, c => (Text.variants c).any a.holds

/-- The set of one character. -/
def one (c : Char) : CharSet := range c c

/-- The set of all characters. -/
def any : CharSet := compl nothing

/-- The union of sets. -/
def unions : List CharSet → CharSet := List.foldr union nothing

/-- The set of the characters in a list of ranges. -/
def ranges (rs : List (Char × Char)) : CharSet := unions (rs.map fun (first, last) => range first last)

/-- The set of the code points in a list of ranges. -/
def codes (rs : List (Nat × Nat)) : CharSet :=
  ranges (rs.map fun (first, last) => (Char.ofNat first, Char.ofNat last))

/-- Has the set a character from 0x80 to 0xFF? -/
def reachesHigh (s : CharSet) : Bool := (List.range 128).any fun n => s.holds (Char.ofNat (128 + n))

/-! ## 2. Classes of ASCII -/

/-- The characters of words in ASCII. -/
def asciiWord : CharSet := ranges [('0', '9'), ('A', 'Z'), ('_', '_'), ('a', 'z')]

/-- The blank characters of ASCII. -/
def asciiBlank : CharSet := codes [(9, 13), (32, 32)]

/-- The digits of ASCII. -/
def asciiDigit : CharSet := range '0' '9'

/-- The classes of ASCII by name. -/
def ascii? : String → Option CharSet
  | "alnum" => some (ranges [('0', '9'), ('A', 'Z'), ('a', 'z')])
  | "alpha" => some (ranges [('A', 'Z'), ('a', 'z')])
  | "ascii" => some (codes [(0, 127)])
  | "blank" => some (codes [(9, 9), (32, 32)])
  | "cntrl" => some (codes [(0, 31), (127, 127)])
  | "digit" => some asciiDigit
  | "graph" => some (range '!' '~')
  | "lower" => some (range 'a' 'z')
  | "print" => some (range ' ' '~')
  | "punct" => some (ranges [('!', '/'), (':', '@'), ('[', '`'), ('\x7b', '~')])
  | "space" => some asciiBlank
  | "upper" => some (range 'A' 'Z')
  | "word" => some asciiWord
  | "xdigit" => some (ranges [('0', '9'), ('A', 'F'), ('a', 'f')])
  | _ => none

/-! ## 3. Properties of Unicode -/

/-- The general categories by their short and long names. -/
def categoryNames : List (List String × List Text.Category) :=
  [(["l", "letter"], Text.Category.letters),
   (["lc", "casedletter"], [.lu, .ll, .lt]),
   (["lu", "uppercaseletter"], [.lu]),
   (["ll", "lowercaseletter"], [.ll]),
   (["lt", "titlecaseletter"], [.lt]),
   (["lm", "modifierletter"], [.lm]),
   (["lo", "otherletter"], [.lo]),
   (["m", "mark", "combiningmark"], Text.Category.marks),
   (["mn", "nonspacingmark"], [.mn]),
   (["mc", "spacingmark"], [.mc]),
   (["me", "enclosingmark"], [.me]),
   (["n", "number"], Text.Category.numbers),
   (["nd", "decimalnumber", "digit"], [.nd]),
   (["nl", "letternumber"], [.nl]),
   (["no", "othernumber"], [.no]),
   (["p", "punctuation", "punct"], [.pc, .pd, .ps, .pe, .pi, .pf, .po]),
   (["pc", "connectorpunctuation"], [.pc]),
   (["pd", "dashpunctuation"], [.pd]),
   (["ps", "openpunctuation"], [.ps]),
   (["pe", "closepunctuation"], [.pe]),
   (["pi", "initialpunctuation"], [.pi]),
   (["pf", "finalpunctuation"], [.pf]),
   (["po", "otherpunctuation"], [.po]),
   (["s", "symbol"], [.sm, .sc, .sk, .so]),
   (["sm", "mathsymbol"], [.sm]),
   (["sc", "currencysymbol"], [.sc]),
   (["sk", "modifiersymbol"], [.sk]),
   (["so", "othersymbol"], [.so]),
   (["z", "separator"], [.zs, .zl, .zp]),
   (["zs", "spaceseparator"], [.zs]),
   (["zl", "lineseparator"], [.zl]),
   (["zp", "paragraphseparator"], [.zp]),
   (["cc", "control", "cntrl"], [.cc]),
   (["cf", "format"], [.cf]),
   (["co", "privateuse"], [.co]),
   (["assigned"], Text.Category.all)]

/-- The symbols that are letters. -/
def letterSymbols : CharSet :=
  codes [(0x24B6, 0x24E9), (0x1F130, 0x1F149), (0x1F150, 0x1F169), (0x1F170, 0x1F189)]

/-- The general category of a name. -/
def category? (name : String) : Option CharSet :=
  match name with
  | "any" => some any
  | "ascii" => some (codes [(0, 127)])
  | "c" | "other" => some (union (compl (categories Text.Category.all)) (categories [.cc, .cf, .co]))
  | "cn" | "unassigned" => some (compl (categories Text.Category.all))
  | name => (categoryNames.find? (·.1.contains name)).map fun entry => categories entry.2

/-- The scripts by name, as far as their letters lie in blocks of their own. -/
def script? : String → Option CharSet
  | "latin" | "latn" =>
    some (codes [(0x41, 0x5A), (0x61, 0x7A), (0xAA, 0xAA), (0xBA, 0xBA), (0xC0, 0xD6), (0xD8, 0xF6),
      (0xF8, 0x2B8), (0x2E0, 0x2E4), (0x1D00, 0x1D25), (0x1D2C, 0x1D5C), (0x1D62, 0x1D65),
      (0x1D6B, 0x1D77), (0x1D79, 0x1DBE), (0x1E00, 0x1EFF), (0x2071, 0x2071), (0x207F, 0x207F),
      (0x2090, 0x209C), (0x212A, 0x212B), (0x2132, 0x2132), (0x214E, 0x214E), (0x2160, 0x2188),
      (0x2C60, 0x2C7F), (0xA722, 0xA787), (0xA78B, 0xA7CA), (0xA7D0, 0xA7D1), (0xA7D3, 0xA7D3),
      (0xA7D5, 0xA7D9), (0xA7F2, 0xA7FF), (0xAB30, 0xAB5A), (0xAB5C, 0xAB64), (0xAB66, 0xAB69),
      (0xFB00, 0xFB06), (0xFF21, 0xFF3A), (0xFF41, 0xFF5A)])
  | "greek" | "grek" =>
    some (codes [(0x370, 0x373), (0x375, 0x377), (0x37A, 0x37D), (0x37F, 0x37F), (0x384, 0x384),
      (0x386, 0x386), (0x388, 0x38A), (0x38C, 0x38C), (0x38E, 0x3A1), (0x3A3, 0x3E1),
      (0x3F0, 0x3FF), (0x1D26, 0x1D2A), (0x1D5D, 0x1D61), (0x1D66, 0x1D6A), (0x1DBF, 0x1DBF),
      (0x1F00, 0x1FFE), (0x2126, 0x2126), (0xAB65, 0xAB65)])
  | "cyrillic" | "cyrl" =>
    some (codes [(0x400, 0x484), (0x487, 0x52F), (0x1C80, 0x1C88), (0x1D2B, 0x1D2B),
      (0x1D78, 0x1D78), (0x2DE0, 0x2DFF), (0xA640, 0xA69F), (0xFE2E, 0xFE2F)])
  | "han" | "hani" =>
    some (codes [(0x2E80, 0x2E99), (0x2E9B, 0x2EF3), (0x2F00, 0x2FD5), (0x3005, 0x3005),
      (0x3007, 0x3007), (0x3021, 0x3029), (0x3038, 0x303B), (0x3400, 0x4DBF), (0x4E00, 0x9FFF),
      (0xF900, 0xFA6D), (0xFA70, 0xFAD9), (0x20000, 0x2A6DF), (0x2A700, 0x2B739),
      (0x2B740, 0x2B81D), (0x2B820, 0x2CEA1), (0x2CEB0, 0x2EBE0), (0x2F800, 0x2FA1D),
      (0x30000, 0x3134A), (0x31350, 0x323AF)])
  | "hiragana" | "hira" => some (codes [(0x3041, 0x3096), (0x309D, 0x309F)])
  | "katakana" | "kana" =>
    some (codes [(0x30A1, 0x30FA), (0x30FD, 0x30FF), (0x31F0, 0x31FF), (0xFF66, 0xFF6F),
      (0xFF71, 0xFF9D)])
  | "hebrew" | "hebr" =>
    some (codes [(0x591, 0x5C7), (0x5D0, 0x5EA), (0x5EF, 0x5F4), (0xFB1D, 0xFB4F)])
  | "arabic" | "arab" =>
    some (codes [(0x600, 0x604), (0x606, 0x60B), (0x60D, 0x61A), (0x61C, 0x61E), (0x620, 0x63F),
      (0x641, 0x64A), (0x656, 0x66F), (0x671, 0x6DC), (0x6DE, 0x6FF), (0x750, 0x77F)])
  | "hangul" | "hang" => some (codes [(0x1100, 0x11FF), (0x3131, 0x318E), (0xAC00, 0xD7A3)])
  | "thai" => some (codes [(0xE01, 0xE3A), (0xE40, 0xE5B)])
  | "devanagari" | "deva" => some (codes [(0x900, 0x950), (0x955, 0x963), (0x966, 0x97F)])
  | _ => none

/-- The yes-or-no properties by name. -/
def binary? : String → Option CharSet
  | "alphabetic" | "alpha" =>
    some (union (categories (Text.Category.letters ++ [.nl])) letterSymbols)
  | "uppercase" | "upper" =>
    some (union (categories [.lu]) (codes [(0x2160, 0x216F), (0x24B6, 0x24CF), (0x1F130, 0x1F149),
      (0x1F150, 0x1F169), (0x1F170, 0x1F189)]))
  | "lowercase" | "lower" =>
    some (union (categories [.ll]) (codes [(0xAA, 0xAA), (0xBA, 0xBA), (0x2B0, 0x2B8),
      (0x2C0, 0x2C1), (0x2E0, 0x2E4), (0x345, 0x345), (0x37A, 0x37A), (0x1D2C, 0x1D6A),
      (0x1D78, 0x1D78), (0x1D9B, 0x1DBF), (0x2071, 0x2071), (0x207F, 0x207F), (0x2090, 0x209C),
      (0x2170, 0x217F), (0x24D0, 0x24E9), (0x2C7C, 0x2C7D), (0xA69C, 0xA69D), (0xA770, 0xA770),
      (0xA7F8, 0xA7F9), (0xAB5C, 0xAB5F)]))
  | "whitespace" | "wspace" | "space" => some blank
  | "asciihexdigit" | "ahex" => some (ranges [('0', '9'), ('A', 'F'), ('a', 'f')])
  | "hexdigit" | "hex" =>
    some (union (ranges [('0', '9'), ('A', 'F'), ('a', 'f')])
      (codes [(0xFF10, 0xFF19), (0xFF21, 0xFF26), (0xFF41, 0xFF46)]))
  | _ => none

/-- The name of a property as it is compared: without blanks, underscores, dashes and a leading `is`,
in lower case. -/
def propertyName (name : List Char) : String :=
  let kept := (name.filter fun c => c.val < 128 && c != ' ' && c != '_' && c != '-').map Char.toLower
  match name.map Char.toLower, kept with
  | 'i' :: 's' :: _, 'i' :: 's' :: rest =>
    if rest = ['c'] then "isc" else String.ofList rest
  | _, kept => String.ofList kept

/-- The characters with a property that is named alone. -/
def property? (name : List Char) : Option CharSet :=
  let name := propertyName name
  if name = "sc" ∨ name = "lc" then category? name
  else (binary? name).orElse fun _ => (category? name).orElse fun _ => script? name

/-- The characters whose property has a value. -/
def valued? (name value : List Char) : Option CharSet :=
  match propertyName name with
  | "gc" | "generalcategory" => category? (propertyName value)
  | "sc" | "script" | "scx" | "scriptextensions" => script? (propertyName value)
  | _ => none

end CharSet

end RouteScaffold
