/-!
# Machine integers in texts

Reading an integer that a machine word holds out of a text.  The digits are taken
one by one, and reading ends without a result where the number would leave its
range.  A plus sign may stand in front, and a minus sign where there are numbers
below zero.
-/

namespace SignedFacts.Machine

/-- Reads digits onto a number, as long as it stays below `bound`. -/
def digitsOnto? (bound number : Nat) : List Char → Option Nat
  | [] => some number
  | c :: rest =>
      let next := 10 * number + (c.toNat - 48)
      if c.isDigit ∧ next < bound then digitsOnto? bound next rest else none

/-- The number that digits spell, one at least, if it is below `bound`. -/
def digits? (bound : Nat) (text : List Char) : Option Nat :=
  if text.isEmpty then none else digitsOnto? bound 0 text

/-- The integer that a text spells, if it is from zero up to but without
`bound`. -/
def unsigned? (bound : Nat) : List Char → Option Nat
  | '+' :: rest => digits? bound rest
  | text => digits? bound text

/-- The integer that a text spells, if it is from `-bound` up to but without
`bound`. -/
def signed? (bound : Nat) : List Char → Option Int
  | '+' :: rest => (digits? bound rest).map Int.ofNat
  | '-' :: rest => (digits? (bound + 1) rest).map fun size : Nat => -(size : Int)
  | text => (digits? bound text).map Int.ofNat

end SignedFacts.Machine
