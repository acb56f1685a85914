import SignedFacts.Number.Numeral

/-!
# Numbers of 64 bits with a moving point

A number is a sign and `significand * 2 ^ exponent` with at most 53 bits in the
significand.  Rounding goes to the nearest number, a tie to the even
significand, and fails where the result is too large to be held.

`ofNumeral?` takes a numeral at the precision of a quick reader: the first
digits that fit 64 bits, times or over a power of ten, with a rounding at each
step.  `text` shows the fewest digits that lie between the two halfway points
around the number, and of those the nearest.
-/

namespace SignedFacts

/-- A number of 64 bits with a moving point. -/
structure Binary64 where
  /-- Whether a minus sign stands in front. -/
  negative : Bool
  /-- The significand. -/
  significand : Nat
  /-- The power of two. -/
  exponent : Int
  deriving DecidableEq, Repr

namespace Binary64

/-! ## Rounding -/

/-- The smallest exponent. -/
def minExponent : Int := -1074

/-- The largest exponent of a significand of 53 bits. -/
def maxExponent : Int := 971

/-- A quotient rounded to the nearest integer, a tie to the even one. -/
def roundQuotient (numerator denominator : Nat) : Nat :=
  let quotient := numerator / denominator
  let rest := numerator % denominator
  if denominator < 2 * rest ∨ (denominator = 2 * rest ∧ quotient % 2 = 1) then quotient + 1
  else quotient

/-- Numerator and denominator of `numerator / denominator / 2 ^ exponent`. -/
def scaled (numerator denominator : Nat) (exponent : Int) : Nat × Nat :=
  if 0 ≤ exponent then (numerator, denominator * Nat.pow 2 exponent.toNat)
  else (numerator * Nat.pow 2 (-exponent).toNat, denominator)

/-- The number of 64 bits nearest to a quotient that is not negative, if it is
not too large. -/
def nearest? (numerator denominator : Nat) : Option Binary64 :=
  let guess : Int := (Nat.log2 numerator : Int) - Nat.log2 denominator - 52
  let (n, d) := scaled numerator denominator guess
  let exponent := max minExponent (if n / d < Nat.pow 2 52 then guess - 1 else guess)
  let (n, d) := scaled numerator denominator exponent
  let significand := roundQuotient n d
  let (significand, exponent) :=
    if significand = Nat.pow 2 53 then (Nat.pow 2 52, exponent + 1) else (significand, exponent)
  if maxExponent < exponent then none
  else if significand = 0 then some ⟨false, 0, 0⟩
  else some ⟨false, significand, exponent⟩

/-- Numerator and denominator of a number without its sign. -/
def fraction (x : Binary64) : Nat × Nat :=
  if 0 ≤ x.exponent then (x.significand * Nat.pow 2 x.exponent.toNat, 1)
  else (x.significand, Nat.pow 2 (-x.exponent).toNat)

/-- A power of ten that can be held. -/
def powerOfTen (power : Nat) : Binary64 := (nearest? (Nat.pow 10 power) 1).getD ⟨false, 0, 0⟩

/-- The product of two numbers without their signs. -/
def times? (x y : Binary64) : Option Binary64 :=
  nearest? (x.fraction.1 * y.fraction.1) (x.fraction.2 * y.fraction.2)

/-- The quotient of two numbers without their signs. -/
def over? (x y : Binary64) : Option Binary64 :=
  nearest? (x.fraction.1 * y.fraction.2) (x.fraction.2 * y.fraction.1)

/-! ## Taking the value of a numeral -/

/-- The largest power of ten that is kept at hand. -/
def maxPower : Nat := 308

/-- The number times `10 ^ power`, one step for each power at hand.  `steps`
bounds the steps down. -/
def shift? : (steps : Nat) → Binary64 → (power : Int) → Option Binary64
  | 0, _, _ => some ⟨false, 0, 0⟩
  | steps + 1, x, power =>
      if power.natAbs ≤ maxPower then
        if 0 ≤ power then x.times? (powerOfTen power.toNat)
        else x.over? (powerOfTen (-power).toNat)
      else if x.significand = 0 then some x
      else if 0 ≤ power then none
      else
        match x.over? (powerOfTen maxPower) with
        | some x => shift? steps x (power + maxPower)
        | none => none

/-- Appends digits to a number as long as it stays below 2⁶⁴.  Gives the number
and the digits left over. -/
def takeDigits (number : Nat) : List Char → Nat × List Char
  | [] => (number, [])
  | c :: rest =>
      let next := number * 10 + (c.toNat - '0'.toNat)
      if next < Nat.pow 2 64 then takeDigits next rest else (number, c :: rest)

/-- The largest exponent that is told apart. -/
def maxWritten : Nat := Nat.pow 2 31 - 1

/-- The value of a numeral, if it is not too large. -/
def ofNumeral? (n : Numeral) : Option Binary64 :=
  let (whole, left) := takeDigits 0 n.whole
  let behind := n.fraction.getD []
  let (significand, unused) := takeDigits whole behind
  let power : Int := (left.length : Int) - (behind.length - unused.length)
  let start := (nearest? significand 1).getD ⟨false, 0, 0⟩
  let size? : Option Binary64 :=
    match n.exponent with
    | none => shift? 10 start power
    | some e =>
        let written := Nat.ofDigitChars 10 e.digits 0
        if maxWritten < written then
          if significand ≠ 0 ∧ e.sign ≠ .minus then none else some ⟨false, 0, 0⟩
        else if e.sign = .minus then shift? 10 start (power - written)
        else shift? 10 start (power + written)
  size?.map fun size => ⟨n.negative, size.significand, size.exponent⟩

/-! ## Text -/

/-- Twice two halfway points and the number between them, as numerators over one
denominator. -/
structure Interval where
  /-- The lower halfway point. -/
  low : Nat
  /-- The number. -/
  middle : Nat
  /-- The upper halfway point. -/
  high : Nat
  /-- The denominator. -/
  denominator : Nat
  /-- Whether the halfway points round to the number. -/
  closed : Bool

/-- What rounds to a number.  Below a power of two the numbers lie closer. -/
def interval (x : Binary64) : Interval :=
  let below := if x.significand = Nat.pow 2 52 ∧ minExponent < x.exponent then 1 else 2
  let (n, d) :=
    if 2 ≤ x.exponent then (Nat.pow 2 (x.exponent - 2).toNat, 1)
    else (1, Nat.pow 2 (2 - x.exponent).toNat)
  { low := (4 * x.significand - below) * n
    middle := 4 * x.significand * n
    high := (4 * x.significand + 2) * n
    denominator := d
    closed := x.significand % 2 = 0 }

/-- Whether `digits * 10 ^ power` lies in an interval. -/
def Interval.holds (i : Interval) (digits : Nat) (power : Int) : Bool :=
  let value := digits * Nat.pow 10 power.toNat * i.denominator
  let unit := Nat.pow 10 (-power).toNat
  if i.closed then i.low * unit ≤ value && value ≤ i.high * unit
  else i.low * unit < value && value < i.high * unit

/-- The neighbour of the number on the grid of `10 ^ power` that lies in the
interval, the nearer one where both do, and the even one of two as near. -/
def Interval.onGrid? (i : Interval) (power : Int) : Option Nat :=
  let numerator := i.middle * Nat.pow 10 (-power).toNat
  let denominator := i.denominator * Nat.pow 10 power.toNat
  let below := numerator / denominator
  match i.holds below power, i.holds (below + 1) power with
  | true, true => some (roundQuotient numerator denominator)
  | true, false => some below
  | false, true => some (below + 1)
  | false, false => none

/-- The power of ten of the first digit of a quotient that is not zero. -/
def firstPower (numerator denominator : Nat) : Int :=
  if denominator ≤ numerator then (Nat.toDigits 10 (numerator / denominator)).length - 1
  else
    -(((List.range 400).find? fun places => denominator ≤ numerator * Nat.pow 10 places).getD 0 : Int)

/-- The fewest digits in an interval, and the power of ten of the last. -/
def Interval.shortest (i : Interval) : Nat × Int :=
  let top := firstPower i.middle i.denominator
  let grids := (List.range 17).map fun (more : Nat) => top - more
  (grids.findSome? fun power => (i.onGrid? power).map fun digits => (digits, power)).getD (0, 0)

/-- Digits with the point in its place, where `top` is the power of ten of the
first.  Powers from -5 to 15 are written out, others as an exponent. -/
def layOut (digits : List Char) (top : Int) : List Char :=
  if 0 ≤ top ∧ top < 16 then
    let whole := top.toNat + 1
    let padded := digits ++ List.replicate (whole - digits.length) '0'
    let behind := padded.drop whole
    padded.take whole ++ '.' :: (if behind.isEmpty then ['0'] else behind)
  else if -5 ≤ top ∧ top < 0 then
    '0' :: '.' :: List.replicate ((-top).toNat - 1) '0' ++ digits
  else
    let sign := if 0 ≤ top then '+' else '-'
    let point := if digits.length = 1 then [] else '.' :: digits.drop 1
    digits.take 1 ++ point ++ 'e' :: sign :: Nat.toDigits 10 top.natAbs

/-- The text of a number. -/
def text (x : Binary64) : String :=
  let sign := if x.negative then ['-'] else []
  if x.significand = 0 then String.ofList (sign ++ ['0', '.', '0'])
  else
    let (number, power) := x.interval.shortest
    let digits := Nat.toDigits 10 number
    let trimmed := (digits.reverse.dropWhile (· = '0')).reverse
    String.ofList (sign ++ layOut trimmed (power + digits.length - 1))

end Binary64

end SignedFacts
