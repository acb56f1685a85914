import SignedFacts.Octets.Hex

/-!
# Quoted strings

The written form of a string in every JSON text of this library.  A quote, a
backslash and the control characters below the space are escaped, five of the
controls by a letter and the rest by four digits.  Every other character stands
as it is, so a string has exactly one written form.
-/

namespace SignedFacts.Text

/-- The written form of a character inside quotes. -/
def quotedChar (c : Char) : List Char :=
  if c = '"' then ['\\', '"']
  else if c = '\\' then ['\\', '\\']
  else if c = '\x08' then ['\\', 'b']
  else if c = '\x0c' then ['\\', 'f']
  else if c = '\n' then ['\\', 'n']
  else if c = '\r' then ['\\', 'r']
  else if c = '\t' then ['\\', 't']
  else if c.toNat < 0x20 then '\\' :: 'u' :: '0' :: '0' :: Hex.octetDigits (UInt8.ofNat c.toNat)
  else [c]

/-- The written form of a string, with its quotes. -/
def quoted (text : String) : List Char :=
  '"' :: text.toList.flatMap quotedChar ++ ['"']

end SignedFacts.Text
