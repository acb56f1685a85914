/-!
# Base64 text

The standard alphabet with `+` and `/`.  Three octets are written as four
characters, and a last group of one or two octets is filled up with `=`.
Reading asks for the filling and for zero in the bits that a last group leaves
over, so each list of octets has one text that reads as it.
-/

namespace SignedFacts.Base64

/-! ## Writing -/

/-- The character of a number below 64. -/
def symbol (sextet : Nat) : Char :=
  if sextet < 26 then Char.ofNat (65 + sextet)
  else if sextet < 52 then Char.ofNat (71 + sextet)
  else if sextet < 62 then Char.ofNat (sextet - 4)
  else if sextet = 62 then '+'
  else '/'

/-- The characters of octets, four for each group of three. -/
def symbols : List UInt8 → List Char
  | [] => []
  | [a] =>
      [symbol (a.toNat / 4), symbol (a.toNat % 4 * 16), '=', '=']
  | [a, b] =>
      [symbol (a.toNat / 4), symbol (a.toNat % 4 * 16 + b.toNat / 16),
        symbol (b.toNat % 16 * 4), '=']
  | a :: b :: c :: rest =>
      symbol (a.toNat / 4) :: symbol (a.toNat % 4 * 16 + b.toNat / 16)
        :: symbol (b.toNat % 16 * 4 + c.toNat / 64) :: symbol (c.toNat % 64) :: symbols rest

/-- The base64 text of octets. -/
def encode (octets : List UInt8) : String := String.ofList (symbols octets)

/-! ## Reading -/

/-- The number that a character of the alphabet stands for. -/
def sextet? (character : Char) : Option Nat :=
  if 'A' ≤ character ∧ character ≤ 'Z' then some (character.toNat - 65)
  else if 'a' ≤ character ∧ character ≤ 'z' then some (character.toNat - 71)
  else if '0' ≤ character ∧ character ≤ '9' then some (character.toNat + 4)
  else if character = '+' then some 62
  else if character = '/' then some 63
  else none

/-- The octets that a text spells, if it is the text of some octets. -/
def decode : List Char → Option (List UInt8)
  | [] => some []
  | [p, q, '=', '='] => do
      let a ← sextet? p
      let b ← sextet? q
      if b % 16 = 0 then some [UInt8.ofNat (a * 4 + b / 16)] else none
  | [p, q, r, '='] => do
      let a ← sextet? p
      let b ← sextet? q
      let c ← sextet? r
      if c % 4 = 0 then
        some [UInt8.ofNat (a * 4 + b / 16), UInt8.ofNat (b % 16 * 16 + c / 4)]
      else none
  | p :: q :: r :: s :: rest => do
      let a ← sextet? p
      let b ← sextet? q
      let c ← sextet? r
      let d ← sextet? s
      let octets ← decode rest
      some (UInt8.ofNat (a * 4 + b / 16) :: UInt8.ofNat (b % 16 * 16 + c / 4)
        :: UInt8.ofNat (c % 4 * 64 + d) :: octets)
  | _ => none

end SignedFacts.Base64
