/-!
# Object identifiers

The identifier of an object is a number of twenty bytes, written with forty hexadecimal digits. A shorter text stands
for the identifier that begins with it and goes on with zeros.
-/

namespace RouteScaffold.Git

/-- An identifier: its forty digits, in lower case. -/
structure ObjectId where
  digits : List Char
  deriving DecidableEq, Repr

namespace ObjectId

/-- How many digits an identifier has. -/
def length : Nat := 40

/-- Is it a hexadecimal digit? -/
def isDigit (c : Char) : Bool := c.isDigit || ('a' ≤ c && c ≤ 'f') || ('A' ≤ c && c ≤ 'F')

/-- Reads the identifier that a text begins. -/
def read? (text : String) : Option ObjectId :=
  let digits := text.toList
  if digits.isEmpty || length < digits.length || !digits.all isDigit then none
  else some ⟨digits.map Char.toLower ++ List.replicate (length - digits.length) '0'⟩

/-- The identifier that a number writes with decimal digits. -/
def ofNumber (n : Nat) : ObjectId :=
  ⟨List.replicate (length - (Nat.toDigits 10 n).length) '0' ++ Nat.toDigits 10 n⟩

/-- The number that the digits of an identifier write. -/
def number (id : ObjectId) : Nat := Nat.ofDigitChars 10 id.digits 0

/-- The identifier with all digits. -/
def text (id : ObjectId) : String := String.ofList id.digits

/-- The identifier with its first seven digits. -/
def short (id : ObjectId) : String := String.ofList (id.digits.take 7)

end ObjectId

end RouteScaffold.Git
