import SignedFacts.Number.Decimal
import SignedFacts.Octets.Utf8

/-!
# Layouts in machine words

`Decimal.parse` takes the place of the point and the length of the fixed spelling as
integers of any size.  A machine takes them as words of 64 bits with a sign, whose sums and
differences leave off what does not fit, and it takes a word as a number of characters
without looking at its sign.  `WordLayout.respell` finds the fixed spelling of a text in
this way.  Every word that comes up on the way has a name here.

Two things can stop the machine, and each is a `WordLayout.Fault`: digits that are split
behind their end, and room for more characters than a machine can hold.
-/

namespace SignedFacts

/-- What stops a machine on its way to a fixed spelling. -/
inductive WordLayout.Fault where
  /-- Digits are split behind their end. -/
  | splitBehindEnd
  /-- There is no room for so many characters. -/
  | noRoom
  deriving DecidableEq, Repr

/-- The size of an exponent as a word, where one of more than nine digits, leading zeros
apart, counts as half of the largest word. -/
def Exponent.word? (e : Exponent) : Option Int64 :=
  let significant := e.digits.dropWhile (· = '0')
  if 9 < significant.length then some (Int64.maxValue / 2)
  else if significant.isEmpty then some 0
  else (Machine.signed? (Nat.pow 2 63) significant).map Int64.ofInt

/-- Where the point stands among the significant digits of a numeral, in words. -/
structure WordLayout where
  /-- The digits from the first to the last that is not zero. -/
  digits : List Char
  /-- The place of the point once the exponent has moved it. -/
  moved : Int64
  /-- The number of zeros that stood in front of the digits. -/
  leading : Nat
  deriving DecidableEq, Repr

namespace WordLayout

/-- The number of digits before the point of a numeral, as it is spelled. -/
def wholeOf (n : Numeral) : Int64 := .ofNat n.whole.length

/-- The place to which the exponent of a numeral moves its point, if the digits of the
exponent spell a word. -/
def movedOf? (n : Numeral) : Option Int64 :=
  match n.exponent with
  | none => some (wholeOf n)
  | some e =>
      e.word?.map fun size => if e.sign = .minus then wholeOf n - size else wholeOf n + size

/-- The layout of a numeral. -/
def ofNumeral? (n : Numeral) : Option WordLayout :=
  (movedOf? n).map fun moved =>
    let leading := (n.allDigits.takeWhile (· = '0')).length
    { digits := ((n.allDigits.drop leading).reverse.dropWhile (· = '0')).reverse
      moved := moved
      leading := leading }

/-! ## Words -/

/-- The number of digits. -/
def length (w : WordLayout) : Int64 := .ofNat w.digits.length

/-- The number of digits before the point, as in a `Layout`. -/
def point (w : WordLayout) : Int64 := w.moved - .ofNat w.leading

/-- The zeros that are put in front of the digits, where the point stands there. -/
def zerosBefore (w : WordLayout) : Int64 := -w.point

/-- The zeros that are put behind the digits, where the point stands there. -/
def zerosBehind (w : WordLayout) : Int64 := w.point - w.length

/-- A zero, a point and the zeros in front of the digits. -/
def opening (w : WordLayout) : Int64 := 2 - w.point

/-- The length of the fixed spelling without a sign. -/
def fixedLength (w : WordLayout) : Int64 :=
  if w.point ≤ 0 then w.opening + w.length
  else if w.length ≤ w.point then w.point
  else w.length + 1

/-- By how many characters the fixed spelling is longer than a text of so many octets. -/
def growth (w : WordLayout) (octets : Nat) : Int64 := w.fixedLength - .ofNat octets

/-- The largest growth of a text. -/
def limit : Int64 := .ofNat Decimal.growthLimit

/-- The number of characters that room is made for. -/
def room (w : WordLayout) : UInt64 := .ofNat w.digits.length + w.point.abs.toUInt64 + 3

/-! ## Spelling -/

/-- The fixed spelling without a sign. -/
def chars (w : WordLayout) : Except Fault (List Char) :=
  if Nat.pow 2 63 ≤ w.room.toNat then .error .noRoom
  else if w.point ≤ 0 then
    .ok ('0' :: '.' :: (List.replicate w.zerosBefore.toUInt64.toNat '0' ++ w.digits))
  else if w.length ≤ w.point then
    .ok (w.digits ++ List.replicate w.zerosBehind.toUInt64.toNat '0')
  else
    let index := w.point.toUInt64.toNat
    if w.digits.length < index then .error .splitBehindEnd
    else .ok (w.digits.take index ++ '.' :: w.digits.drop index)

/-- The fixed spelling of the number that a text spells. -/
def respell (text : String) : Except Fault (Except Decimal.ParseError String) :=
  match Numeral.parse? text.toList with
  | none => .ok (.error (.malformed text))
  | some n =>
      match ofNumeral? n with
      | none => .ok (.error (.malformed text))
      | some w =>
          if w.digits.isEmpty then .ok (.ok "0")
          else if limit < w.growth (Utf8.encode text).length then .ok (.error (.tooLong text))
          else
            w.chars.map fun chars =>
              .ok (String.ofList ((if n.negative then ['-'] else []) ++ chars))

end WordLayout

end SignedFacts
