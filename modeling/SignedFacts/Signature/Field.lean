/-!
# The field of the curve

Integers modulo 2²⁵⁵ - 19, kept below the modulus.
-/

namespace SignedFacts.Ed25519

/-- The modulus. -/
def modulus : Nat := Nat.pow 2 255 - 19

theorem modulus_pos : 0 < modulus := by decide

/-- A number below the modulus. -/
abbrev Field := Fin modulus

namespace Field

/-- The field element of a number. -/
def ofNat (number : Nat) : Field := ⟨number % modulus, Nat.mod_lt number modulus_pos⟩

/-- The power by squaring, where the exponent has at most `bits` bits. -/
def power : (bits : Nat) → Field → (exponent : Nat) → Field
  | 0, _, _ => ofNat 1
  | bits + 1, base, exponent =>
      let rest := power bits (base * base) (exponent / 2)
      if exponent % 2 = 1 then base * rest else rest

/-- The inverse, and zero for zero. -/
def inverse (x : Field) : Field := power 255 x (modulus - 2)

/-- A number whose square is minus one. -/
def rootOfMinusOne : Field := power 255 (ofNat 2) ((modulus - 1) / 4)

/-- Whether the number is odd, which is called negative. -/
def isNegative (x : Field) : Bool := x.val % 2 = 1

/-- The one of `x` and `-x` that is not negative. -/
def abs (x : Field) : Field := if x.isNegative then ofNat 0 - x else x

/-- The square root of `u / v` that is not negative, if there is one. -/
def sqrtRatio? (u v : Field) : Option Field :=
  let cube := v * v * v
  let candidate := u * cube * power 255 (u * cube * cube * v) ((modulus - 5) / 8)
  let check := v * candidate * candidate
  if check = u then some candidate.abs
  else if check = ofNat 0 - u then some (candidate * rootOfMinusOne).abs
  else none

end Field

end SignedFacts.Ed25519
