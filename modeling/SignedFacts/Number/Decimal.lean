import SignedFacts.Number.Machine
import SignedFacts.Number.Numeral

/-!
# Decimal numbers

A decimal number is a whole number of units of a power of ten, with the
smallest power that does.  So each value has one `Decimal` and one spelling: no
exponent, no leading zero more than needed, no zero at the end of a fraction and
no minus sign on zero.

`Decimal.ofNumeral` takes the value of a numeral.  An exponent can make the
fixed spelling much longer than the numeral, and a numeral that would grow by
more than `growthLimit` characters is refused.  The length is computed from the
numeral's `Layout` before any digit is written.  The sign counts on the side of
the numeral only.
-/

namespace SignedFacts

/-- A decimal number: `units / 10 ^ scale` in lowest terms. -/
structure Decimal where
  /-- The number of units. -/
  units : Int
  /-- The number of places behind the point. -/
  scale : Nat
  /-- The last place is needed. -/
  reduced : scale = 0 ∨ units % 10 ≠ 0
  deriving DecidableEq, Repr

namespace Decimal

/-! ## Construction -/

/-- The number `units / 10 ^ scale`. -/
def make (units : Int) : (scale : Nat) → Decimal
  | 0 => ⟨units, 0, Or.inl rfl⟩
  | scale + 1 =>
      if h : units % 10 = 0 then make (units / 10) scale else ⟨units, scale + 1, Or.inr h⟩

/-- An integer. -/
def ofInt (n : Int) : Decimal := make n 0

instance : Inhabited Decimal := ⟨ofInt 0⟩

/-! ## Spelling -/

/-- The digits of a number with zeros in front until there are more than
`scale`. -/
def paddedDigits (number scale : Nat) : List Char :=
  let digits := Nat.toDigits 10 number
  List.replicate (scale + 1 - digits.length) '0' ++ digits

/-- The spelling without the sign. -/
def unsignedChars (number scale : Nat) : List Char :=
  if scale = 0 then Nat.toDigits 10 number
  else
    let digits := paddedDigits number scale
    digits.take (digits.length - scale) ++ '.' :: digits.drop (digits.length - scale)

/-- The spelling of a decimal number. -/
def chars (x : Decimal) : List Char :=
  (if x.units < 0 then ['-'] else []) ++ unsignedChars x.units.natAbs x.scale

/-- The spelling of a decimal number, as text. -/
def text (x : Decimal) : String := String.ofList x.chars

/-! ## Integers -/

/-- Whether the spelling has no point. -/
def isInteger (x : Decimal) : Bool := !x.chars.contains '.'

/-- The spelling, read as an unsigned integer of 64 bits. -/
def toUnsigned? (x : Decimal) : Option Nat := Machine.unsigned? UInt64.size x.chars

/-- The spelling, read as a signed integer of 64 bits. -/
def toSigned? (x : Decimal) : Option Int := Machine.signed? (Nat.pow 2 63) x.chars

/-! ## Taking the value of a numeral -/

/-- By how many characters the fixed spelling may be longer than the
numeral. -/
def growthLimit : Nat := 1024

/-- The size taken for an exponent of more than nine digits.  It is past every
exponent that could be accepted, unless the number is zero. -/
def farExponent : Nat := (Nat.pow 2 63 - 1) / 2

end Decimal

namespace Exponent

/-- The size of an exponent, where one of more than nine digits, leading zeros
apart, counts as `farExponent`. -/
def magnitude (e : Exponent) : Nat :=
  let significant := e.digits.dropWhile (· = '0')
  if 9 < significant.length then Decimal.farExponent else Nat.ofDigitChars 10 significant 0

/-- The exponent with its sign. -/
def value (e : Exponent) : Int :=
  match e.sign with
  | .minus => -(e.magnitude : Int)
  | _ => e.magnitude

end Exponent

/-- Where the point stands among the significant digits of a numeral. -/
structure Layout where
  /-- The digits from the first to the last that is not zero. -/
  digits : List Char
  /-- The number of digits before the point.  It may be negative or larger than
  the number of digits, which zeros then make up. -/
  point : Int
  deriving DecidableEq, Repr

namespace Layout

/-- The length of the fixed spelling without a sign. -/
def fixedLength (layout : Layout) : Int :=
  let length : Int := layout.digits.length
  if layout.point ≤ 0 then 2 - layout.point + length
  else if length ≤ layout.point then layout.point
  else length + 1

end Layout

namespace Numeral

/-- The digits before and behind the point. -/
def allDigits (n : Numeral) : List Char := n.whole ++ n.fraction.getD []

/-- The power of ten that the exponent stands for. -/
def power (n : Numeral) : Int := (n.exponent.map Exponent.value).getD 0

/-- The significant digits and the place of the point. -/
def layout (n : Numeral) : Layout :=
  let digits := n.allDigits.dropWhile (· = '0')
  let leading := n.allDigits.length - digits.length
  { digits := (digits.reverse.dropWhile (· = '0')).reverse
    point := n.whole.length + n.power - leading }

/-- Whether the fixed spelling is short enough, where the numeral is written in
`length` characters.  Zero always is. -/
def fits (n : Numeral) (length : Nat) : Bool :=
  n.layout.digits.isEmpty || n.layout.fixedLength - length ≤ Decimal.growthLimit

end Numeral

namespace Decimal

/-- The value of a numeral that is written in `length` characters, if its fixed
spelling is short enough. -/
def ofNumeral? (n : Numeral) (length : Nat) : Option Decimal :=
  if n.fits length then
    let size : Int := Nat.ofDigitChars 10 n.allDigits 0
    let units := if n.negative then -size else size
    let shift := n.power - (n.fraction.getD []).length
    if units = 0 then some (ofInt 0)
    else if 0 ≤ shift then some (ofInt (units * Nat.pow 10 shift.toNat))
    else some (make units (-shift).toNat)
  else none

/-- Why a text is not a decimal number. -/
inductive ParseError where
  /-- The text is no numeral. -/
  | malformed (text : String)
  /-- The fixed spelling is too long. -/
  | tooLong (text : String)
  deriving DecidableEq, Repr

/-- The error in words. -/
def ParseError.message : ParseError → String
  | malformed text => s!"invalid number: {text}"
  | tooLong text => s!"number out of range for fixed decimal form: {text}"

/-- The value of a numeral, where an error shows the numeral as it is
written. -/
def ofNumeral (n : Numeral) : Except ParseError Decimal :=
  match ofNumeral? n n.chars.length with
  | some x => .ok x
  | none => .error (.tooLong (String.ofList n.chars))

/-- The decimal number that a text spells. -/
def parse (text : String) : Except ParseError Decimal :=
  match Numeral.parse? text.toList with
  | none => .error (.malformed text)
  | some n =>
      match ofNumeral? n text.length with
      | some x => .ok x
      | none => .error (.tooLong text)

end Decimal

end SignedFacts
