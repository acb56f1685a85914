import SignedFacts.Text.Hidden

/-!
# Text shown in messages

A message that shows a text or a character puts it in quotes and makes it
visible: the quote and the backslash are escaped, four controls by a letter,
and every character that does not show by itself by its number.
-/

namespace SignedFacts.Text

/-- A character made visible between quotes of the kind given. -/
def visibleChar (quote : Char) (c : Char) : List Char :=
  if c = '\x00' then ['\\', '0']
  else if c = '\t' then ['\\', 't']
  else if c = '\n' then ['\\', 'n']
  else if c = '\r' then ['\\', 'r']
  else if c = '\\' ∨ c = quote then ['\\', c]
  else if isHidden c then
    ['\\', 'u', '\x7b'] ++ Nat.toDigits 16 c.toNat ++ ['\x7d']
  else [c]

/-- A text in quotes, made visible. -/
def literal (text : String) : String :=
  String.ofList ('"' :: text.toList.flatMap (visibleChar '"') ++ ['"'])

/-- A character in quotes, made visible. -/
def charLiteral (c : Char) : String :=
  String.ofList ('\'' :: visibleChar '\'' c ++ ['\''])

end SignedFacts.Text
