/-!
# Numbers as octets

A number of fixed width is written with its least octet first (little endian)
or last (big endian).
-/

namespace SignedFacts.Octets

/-- The number whose octets are given, least first. -/
def littleEndian : List UInt8 → Nat
  | [] => 0
  | octet :: rest => octet.toNat + 256 * littleEndian rest

/-- The least `count` octets of a number, least first. -/
def toLittleEndian : (count : Nat) → (number : Nat) → List UInt8
  | 0, _ => []
  | count + 1, number => UInt8.ofNat number :: toLittleEndian count (number / 256)

/-- The number whose octets are given, least last. -/
def bigEndian (octets : List UInt8) : Nat := littleEndian octets.reverse

/-- The least `count` octets of a number, least last. -/
def toBigEndian (count number : Nat) : List UInt8 := (toLittleEndian count number).reverse

@[simp] theorem length_toLittleEndian (count number : Nat) :
    (toLittleEndian count number).length = count := by
  induction count generalizing number with
  | zero => rfl
  | succ count ih => simp [toLittleEndian, ih]

@[simp] theorem length_toBigEndian (count number : Nat) :
    (toBigEndian count number).length = count := by
  simp [toBigEndian]

/-- Octets cut into groups of `size`, the last one shorter if they run out.
Each group takes at least one octet. -/
def groups (size : Nat) (octets : List UInt8) : List (List UInt8) :=
  go octets.length octets
where
  /-- Cuts at most `bound` groups. -/
  go : Nat → List UInt8 → List (List UInt8)
    | 0, _ => []
    | _, [] => []
    | bound + 1, octets => octets.take (max size 1) :: go bound (octets.drop (max size 1))

end SignedFacts.Octets
