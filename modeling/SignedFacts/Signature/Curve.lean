import SignedFacts.Octets.Endian
import SignedFacts.Signature.Field

/-!
# Points of the curve

The twisted Edwards curve `-x² + y² = 1 + d x² y²`.  A point is held as
`X`, `Y`, `Z`, `T` with `x = X / Z`, `y = Y / Z` and `x y = T / Z`.  The
addition below holds for all pairs of points, so doubling needs no rule of its
own.  A point is written as 32 octets: `y` with the least octet first, and the
sign of `x` in the topmost bit.
-/

namespace SignedFacts.Ed25519

open SignedFacts.Octets

/-- A point of the curve. -/
structure Point where
  /-- The numerator of the first coordinate. -/
  X : Field
  /-- The numerator of the second coordinate. -/
  Y : Field
  /-- The common denominator. -/
  Z : Field
  /-- The numerator of the product of the coordinates. -/
  T : Field

/-- The constant of the curve, -121665 / 121666. -/
def d : Field := (Field.ofNat 0 - Field.ofNat 121665) * (Field.ofNat 121666).inverse

/-- Twice the constant of the curve. -/
def doubleD : Field := d + d

namespace Point

/-- The neutral point. -/
def identity : Point := ⟨Field.ofNat 0, Field.ofNat 1, Field.ofNat 1, Field.ofNat 0⟩

/-- The sum of two points. -/
def add (p q : Point) : Point :=
  let a := (p.Y - p.X) * (q.Y - q.X)
  let b := (p.Y + p.X) * (q.Y + q.X)
  let c := p.T * doubleD * q.T
  let z := p.Z * q.Z
  let e := b - a
  let f := z + z - c
  let g := z + z + c
  let h := b + a
  ⟨e * f, g * h, f * g, e * h⟩

/-- The point taken `scalar` times, where the scalar has at most `bits`
bits. -/
def timesWithin : (bits : Nat) → (scalar : Nat) → Point → Point
  | 0, _, _ => identity
  | bits + 1, scalar, p =>
      let rest := timesWithin bits (scalar / 2) (p.add p)
      if scalar % 2 = 1 then p.add rest else rest

/-- The point taken `scalar` times, for scalars below 2²⁵⁶. -/
def times (scalar : Nat) (p : Point) : Point := timesWithin 256 scalar p

/-- The inverse point. -/
def neg (p : Point) : Point := ⟨Field.ofNat 0 - p.X, p.Y, p.Z, Field.ofNat 0 - p.T⟩

/-- Whether eight times the point is the neutral point. -/
def isSmallOrder (p : Point) : Bool :=
  let q := p.times 8
  q.X = Field.ofNat 0 && q.Y = q.Z

/-- The topmost bit of the 32 octets, which holds the sign of `x`. -/
def signBit : Nat := Nat.pow 2 255

/-- The 32 octets of a point. -/
def encode (p : Point) : List UInt8 :=
  let scale := p.Z.inverse
  let x := p.X * scale
  let y := p.Y * scale
  toLittleEndian 32 (y.val + if x.isNegative then signBit else 0)

/-- The point that 32 octets stand for.  `y` is taken modulo the field, and a
sign on `x = 0` is let pass. -/
def decode? (octets : List UInt8) : Option Point :=
  let number := littleEndian octets
  let y := Field.ofNat (number % signBit)
  let square := y * y
  (Field.sqrtRatio? (square - Field.ofNat 1) (d * square + Field.ofNat 1)).map fun root =>
    let x := if signBit ≤ number then Field.ofNat 0 - root else root
    ⟨x, y, Field.ofNat 1, x * y⟩

/-- The base point: `y = 4 / 5` and `x` not negative. -/
def base : Point :=
  (decode? (toLittleEndian 32 (Field.ofNat 4 * (Field.ofNat 5).inverse).val)).getD identity

end Point

end SignedFacts.Ed25519
