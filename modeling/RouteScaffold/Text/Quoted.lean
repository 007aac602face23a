/-!
# Quoted texts

The double-quoted form of a text that JSON and JavaScript share: a quote, a backslash and the
control characters below U+0020 are escaped, everything else stands for itself. `quote` writes it;
the escapes it uses are the rows of `escape`.
-/

namespace RouteScaffold.Text

/-- The hexadecimal digit of a value below sixteen. -/
def hexDigit (n : Nat) : Char := Nat.digitChar n

/-- What stands for a character between double quotes. -/
def escape (c : Char) : List Char :=
  if c = '"' then ['\\', '"']
  else if c = '\\' then ['\\', '\\']
  else if c.toNat = 0x08 then ['\\', 'b']
  else if c.toNat = 0x09 then ['\\', 't']
  else if c.toNat = 0x0A then ['\\', 'n']
  else if c.toNat = 0x0C then ['\\', 'f']
  else if c.toNat = 0x0D then ['\\', 'r']
  else if c.toNat < 0x20 then
    ['\\', 'u', '0', '0', hexDigit (c.toNat / 16), hexDigit (c.toNat % 16)]
  else [c]

/-- The characters of a text between double quotes. -/
def quoteChars (s : List Char) : List Char := '"' :: (s.flatMap escape ++ ['"'])

/-- The text as a double-quoted literal. -/
def quote (s : String) : String := String.ofList (quoteChars s.toList)

end RouteScaffold.Text
