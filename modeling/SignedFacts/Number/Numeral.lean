/-!
# Numerals

A numeral is a decimal number as it is spelled: a sign, digits, digits behind a
point, and an exponent with or without a sign of its own.  `Numeral.parse?`
reads the spelling, with leading zeros allowed and every list of digits not
empty, and `Numeral.chars` writes it.  Only the case of the `e` is not kept.
-/

namespace SignedFacts

/-- The sign in front of an exponent. -/
inductive ExponentSign where
  /-- No sign. -/
  | bare
  /-- A plus sign. -/
  | plus
  /-- A minus sign. -/
  | minus
  deriving DecidableEq, Repr

namespace ExponentSign

/-- The spelling of the sign. -/
def chars : ExponentSign → List Char
  | bare => []
  | plus => ['+']
  | minus => ['-']

/-- The sign made explicit. -/
def explicit : ExponentSign → ExponentSign
  | bare => plus
  | sign => sign

end ExponentSign

/-- An exponent: a sign and digits. -/
structure Exponent where
  /-- The sign. -/
  sign : ExponentSign
  /-- The digits. -/
  digits : List Char
  deriving DecidableEq, Repr

/-- The spelling of a decimal number. -/
structure Numeral where
  /-- Whether a minus sign stands in front. -/
  negative : Bool
  /-- The digits before the point. -/
  whole : List Char
  /-- The digits behind the point, if there is a point. -/
  fraction : Option (List Char)
  /-- The exponent, if there is one. -/
  exponent : Option Exponent
  deriving DecidableEq, Repr

namespace Numeral

/-! ## Writing -/

/-- The spelling of a fraction with its point. -/
def fractionChars : Option (List Char) → List Char
  | none => []
  | some digits => '.' :: digits

/-- The spelling of an exponent with its `e`. -/
def exponentChars : Option Exponent → List Char
  | none => []
  | some exponent => 'e' :: exponent.sign.chars ++ exponent.digits

/-- The spelling of a numeral. -/
def chars (n : Numeral) : List Char :=
  (if n.negative then ['-'] else []) ++ n.whole ++ fractionChars n.fraction
    ++ exponentChars n.exponent

/-- The numeral with the sign of its exponent made explicit. -/
def explicit (n : Numeral) : Numeral :=
  { n with exponent := n.exponent.map fun e => { e with sign := e.sign.explicit } }

/-! ## Reading -/

/-- Takes a sign off the front of an exponent. -/
def takeSign : List Char → ExponentSign × List Char
  | '+' :: rest => (.plus, rest)
  | '-' :: rest => (.minus, rest)
  | rest => (.bare, rest)

/-- Takes a minus sign off the front. -/
def takeMinus : List Char → Bool × List Char
  | '-' :: rest => (true, rest)
  | rest => (false, rest)

/-- Digits, if the list is not empty and holds nothing else. -/
def digits? (text : List Char) : Option (List Char) :=
  if text.isEmpty || !text.all Char.isDigit then none else some text

/-- An exponent without its `e`. -/
def exponent? (text : List Char) : Option Exponent :=
  let (sign, rest) := takeSign text
  (digits? rest).map fun digits => ⟨sign, digits⟩

/-- Whether a character begins an exponent. -/
def isExponentMark (c : Char) : Bool := c = 'e' || c = 'E'

/-- What stands behind a mark, read by `read?`, where nothing at all stands for
no mark. -/
def afterMark? {α : Type} (read? : List Char → Option α) : List Char → Option (Option α)
  | [] => some none
  | _ :: rest => (read? rest).map some

/-- The numeral that a text spells. -/
def parse? (text : List Char) : Option Numeral := do
  let (negative, unsigned) := takeMinus text
  let mantissa := unsigned.takeWhile (!isExponentMark ·)
  let exponent ← afterMark? exponent? (unsigned.dropWhile (!isExponentMark ·))
  let whole ← digits? (mantissa.takeWhile (· ≠ '.'))
  let fraction ← afterMark? digits? (mantissa.dropWhile (· ≠ '.'))
  some ⟨negative, whole, fraction, exponent⟩

end Numeral

end SignedFacts
