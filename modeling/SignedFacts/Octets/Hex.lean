/-!
# Hexadecimal text

An octet is written as two lower-case digits, high half first.  Reading takes
digits of either case.  It works on the octets of the text and not on its
characters, so a position in an error counts octets.
-/

namespace SignedFacts.Hex

/-! ## Writing -/

/-- The lower-case digit of a half octet. -/
def digit (half : UInt8) : Char :=
  if half < 10 then Char.ofUInt8 (half + 48) else Char.ofUInt8 (half + 87)

/-- The two digits of an octet. -/
def octetDigits (octet : UInt8) : List Char := [digit (octet / 16), digit (octet % 16)]

/-- The digits of octets, two for each. -/
def digits (octets : List UInt8) : List Char := octets.flatMap octetDigits

/-- The hexadecimal text of octets. -/
def encode (octets : List UInt8) : String := String.ofList (digits octets)

/-! ## Reading -/

/-- Why a text is not the hexadecimal text of what was asked for. -/
inductive DecodeError where
  /-- The text has an odd number of octets. -/
  | oddLength
  /-- The octet at this position of the text is not a digit. -/
  | badDigit (found : UInt8) (position : Nat)
  /-- The text spells another number of octets than was asked for. -/
  | wrongLength
  deriving DecidableEq, Repr

/-- The half octet that a digit stands for. -/
def halfOctet? (character : UInt8) : Option UInt8 :=
  if 48 ≤ character ∧ character ≤ 57 then some (character - 48)
  else if 97 ≤ character ∧ character ≤ 102 then some (character - 87)
  else if 65 ≤ character ∧ character ≤ 70 then some (character - 55)
  else none

/-- Reads pairs of digits.  The position is that of the first octet of the
text given, and a last octet without a partner is an odd length. -/
def decodePairs (position : Nat) : List UInt8 → Except DecodeError (List UInt8)
  | [] => .ok []
  | [_] => .error .oddLength
  | high :: low :: rest =>
      match halfOctet? high, halfOctet? low with
      | none, _ => .error (.badDigit high position)
      | some _, none => .error (.badDigit low (position + 1))
      | some h, some l => (decodePairs (position + 2) rest).map ((h * 16 + l) :: ·)

/-- The octets that a text spells.  An odd length is told before a bad
digit. -/
def decode (text : List UInt8) : Except DecodeError (List UInt8) :=
  if text.length % 2 = 1 then .error .oddLength else decodePairs 0 text

end SignedFacts.Hex
