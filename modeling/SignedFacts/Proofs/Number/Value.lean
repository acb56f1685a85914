import Mathlib.Algebra.Order.Field.Power
import Mathlib.Algebra.Order.Field.Rat
import Mathlib.Data.List.TakeWhile
import Mathlib.Tactic.FieldSimp
import Mathlib.Tactic.Linarith
import Mathlib.Tactic.Positivity
import Mathlib.Tactic.Ring
import SignedFacts.Proofs.Number.Machine

/-!
# The values of numbers

The rational number that a numeral spells and the one that a decimal number is.
`Numeral.value` takes the exponent as it is, however many digits it has, while
the reader of numerals counts an exponent of more than nine digits as one that
is too far away.  For a numeral of at most `Numeral.safeLength` characters this
is no difference.  What it is read as has its value (`Decimal.value_of_ofNumeral`),
and it is read as an unsigned integer exactly if its value is one
(`Decimal.unsigned_iff`).
-/

namespace SignedFacts

/-! ## Definitions -/

/-- The number that an exponent spells. -/
def Exponent.exact (e : Exponent) : Int :=
  match e.sign with
  | .minus => -(Nat.ofDigitChars 10 e.digits 0 : Int)
  | _ => Nat.ofDigitChars 10 e.digits 0

namespace Numeral

/-- The number that the exponent spells. -/
def exactPower (n : Numeral) : Int := (n.exponent.map Exponent.exact).getD 0

/-- All digits as one number. -/
def size (n : Numeral) : Nat := Nat.ofDigitChars 10 n.allDigits 0

/-- All digits as one number with its sign. -/
def units (n : Numeral) : Int := if n.negative then -(n.size : Int) else n.size

/-- The number of places behind the point. -/
def places (n : Numeral) : Nat := (n.fraction.getD []).length

/-- The number that a numeral spells. -/
def value (n : Numeral) : ℚ := n.units * 10 ^ (n.exactPower - n.places)

/-- A length up to which no exponent of more than nine digits can be made good
by the number of other digits. -/
def safeLength : Nat := Nat.pow 2 28

end Numeral

/-- The value of a decimal number. -/
def Decimal.value (x : Decimal) : ℚ := x.units / 10 ^ x.scale

/-! ## Digits -/

namespace Numeral

theorem digit_lt {c : Char} (digit : c.isDigit = true) : c.toNat - 48 < 10 := by
  have high : c.toNat ≤ 57 := (Char.isDigit_iff_toNat.1 digit).2
  omega

theorem ofDigitChars_lt {text : List Char} (digits : ∀ c ∈ text, c.isDigit = true) :
    Nat.ofDigitChars 10 text 0 < 10 ^ text.length := by
  induction text with
  | nil => simp
  | cons c text induction =>
      obtain ⟨digit, others⟩ := List.forall_mem_cons.1 digits
      have first := digit_lt digit
      have rest := induction others
      rw [Nat.ofDigitChars_cons, Nat.ofDigitChars_eq_ofDigitChars_zero, List.length_cons,
        Nat.pow_succ]
      have : 10 ^ text.length * (10 * 0 + (c.toNat - '0'.toNat)) ≤ 10 ^ text.length * 9 :=
        Nat.mul_le_mul_left _ (by simp; omega)
      omega

theorem le_ofDigitChars {c : Char} {text : List Char} (digit : c.isDigit = true) (other : c ≠ '0') :
    10 ^ text.length ≤ Nat.ofDigitChars 10 (c :: text) 0 := by
  have low : 48 ≤ c.toNat := (Char.isDigit_iff_toNat.1 digit).1
  have positive : c.toNat ≠ 48 := fun same => other (Char.toNat_inj.1 same)
  rw [Nat.ofDigitChars_cons, Nat.ofDigitChars_eq_ofDigitChars_zero]
  have : 10 ^ text.length * 1 ≤ 10 ^ text.length * (10 * 0 + (c.toNat - '0'.toNat)) :=
    Nat.mul_le_mul_left _ (by simp; omega)
  omega

theorem ofDigitChars_dropZeros (text : List Char) :
    Nat.ofDigitChars 10 (text.dropWhile (· = '0')) 0 = Nat.ofDigitChars 10 text 0 := by
  induction text with
  | nil => rfl
  | cons c text induction =>
      by_cases zero : c = '0'
      · simp [zero, induction, Nat.ofDigitChars_cons]
      · simp [zero]

theorem dropZeros_bounds {text : List Char} (digits : ∀ c ∈ text, c.isDigit = true)
    (left : text.dropWhile (· = '0') ≠ []) :
    ∃ length, (text.dropWhile (· = '0')).length = length + 1
      ∧ 10 ^ length ≤ Nat.ofDigitChars 10 text 0
      ∧ Nat.ofDigitChars 10 text 0 < 10 ^ (length + 1) := by
  have same := ofDigitChars_dropZeros text
  have still : ∀ c ∈ text.dropWhile (· = '0'), c.isDigit = true :=
    fun c member => digits c ((List.dropWhile_sublist _).mem member)
  obtain ⟨c, rest, shape⟩ := List.exists_cons_of_ne_nil left
  have other : c ≠ '0' := by simpa [shape] using List.head?_dropWhile_not (· = '0') text
  rw [shape] at same still
  rw [shape, ← same]
  exact ⟨rest.length, rfl, le_ofDigitChars (still c (.head _)) other, ofDigitChars_lt still⟩

theorem dropZeros_eq_nil_iff {text : List Char} (digits : ∀ c ∈ text, c.isDigit = true) :
    text.dropWhile (· = '0') = [] ↔ Nat.ofDigitChars 10 text 0 = 0 := by
  constructor
  · intro empty
    rw [← ofDigitChars_dropZeros, empty]
    rfl
  · intro zero
    by_contra left
    obtain ⟨length, _, low, _⟩ := dropZeros_bounds digits left
    have := Nat.pow_pos (n := length) (show 0 < 10 by decide)
    omega

/-! ## Exponents -/

theorem magnitude_cases {e : Exponent} (digits : IsDigits e.digits) :
    e.magnitude = Nat.ofDigitChars 10 e.digits 0
      ∨ (e.magnitude = Decimal.farExponent ∧ 10 ^ 9 ≤ Nat.ofDigitChars 10 e.digits 0) := by
  have same := ofDigitChars_dropZeros e.digits
  simp only [Exponent.magnitude]
  split
  next long =>
    refine .inr ⟨rfl, ?_⟩
    have left : e.digits.dropWhile (· = '0') ≠ [] := by
      intro empty
      simp [empty] at long
    obtain ⟨length, shape, low, _⟩ := dropZeros_bounds digits.2 left
    exact Nat.le_trans (Nat.pow_le_pow_right (by decide) (by omega)) low
  next => exact .inl same

/-- The exponent is counted as it is, or as one that is too far away, and then
it is far away. -/
theorem power_cases {n : Numeral} (formed : n.WellFormed) :
    n.power = n.exactPower
      ∨ (n.power = Decimal.farExponent ∧ 10 ^ 9 ≤ n.exactPower)
      ∨ (n.power = -Decimal.farExponent ∧ n.exactPower ≤ -10 ^ 9) := by
  cases present : n.exponent with
  | none => exact .inl (by simp [power, exactPower, present])
  | some e =>
      have cases := magnitude_cases (formed.exponent e present)
      simp only [power, exactPower, present, Option.map_some, Option.getD_some, Exponent.value,
        Exponent.exact]
      cases e.sign <;> simp only <;> omega

theorem exactPower_explicit (n : Numeral) : n.explicit.exactPower = n.exactPower := by
  obtain ⟨negative, whole, fraction, exponent⟩ := n
  cases exponent with
  | none => rfl
  | some exponent =>
      obtain ⟨sign, digits⟩ := exponent
      cases sign <;> rfl

/-- The sign of the exponent may be left out. -/
theorem value_explicit (n : Numeral) : n.explicit.value = n.value := by
  rw [value, exactPower_explicit]
  rfl

/-! ## The size of a value -/

section Size

variable {n : Numeral}

/-- The digits behind leading zeros. -/
def significant (n : Numeral) : List Char := n.allDigits.dropWhile (· = '0')

theorem isDigit_of_mem_allDigits (formed : n.WellFormed) : ∀ c ∈ n.allDigits, c.isDigit = true := by
  intro c member
  rcases List.mem_append.1 member with whole | fraction
  · exact formed.whole.2 c whole
  · cases present : n.fraction with
    | none => simp [present] at fraction
    | some digits =>
        rw [present] at fraction
        exact (formed.fraction digits present).2 c fraction

theorem length_allDigits (n : Numeral) : n.allDigits.length = n.whole.length + n.places := by
  simp [allDigits, places]

theorem length_significant_le (n : Numeral) : n.significant.length ≤ n.allDigits.length :=
  length_dropWhile_le _

theorem point_layout (n : Numeral) :
    n.layout.point = n.significant.length + n.power - n.places := by
  have := n.length_allDigits
  have := n.length_significant_le
  simp only [layout, significant] at *
  omega

theorem digits_layout_eq_nil_iff (formed : n.WellFormed) : n.layout.digits = [] ↔ n.size = 0 := by
  rw [size, ← dropZeros_eq_nil_iff (isDigit_of_mem_allDigits formed)]
  constructor
  · intro empty
    have stripped : ∀ c ∈ n.significant, c = '0' := by
      simpa [layout, significant, List.dropWhile_eq_nil_iff] using empty
    by_contra left
    obtain ⟨c, rest, shape⟩ := List.exists_cons_of_ne_nil left
    have other := List.head?_dropWhile_not (· = '0') n.allDigits
    rw [significant, shape] at stripped
    rw [shape] at other
    exact absurd (stripped c (.head _)) (by simpa using other)
  · intro empty
    simp [layout, empty]

theorem abs_value (n : Numeral) : |n.value| = n.size * 10 ^ (n.exactPower - n.places) := by
  have units : |(n.units : ℚ)| = n.size := by
    rw [Numeral.units]
    split <;> simp
  rw [value, abs_mul, units, abs_of_pos (a := (10 : ℚ) ^ (n.exactPower - n.places)) (by positivity)]

/-- The place of the point bounds a value that is not zero. -/
theorem abs_value_bounds (formed : n.WellFormed) (nonzero : n.size ≠ 0) :
    (10 : ℚ) ^ (n.significant.length + n.exactPower - n.places - 1) ≤ |n.value|
      ∧ |n.value| < 10 ^ (n.significant.length + n.exactPower - n.places) := by
  have digits := isDigit_of_mem_allDigits formed
  obtain ⟨length, shape, low, high⟩ :=
    dropZeros_bounds digits fun empty => nonzero ((dropZeros_eq_nil_iff digits).1 empty)
  have lowRat : ((10 : ℚ) ^ length) ≤ n.size := by exact_mod_cast low
  have highRat : (n.size : ℚ) < 10 ^ (length + 1) := by exact_mod_cast high
  have positive : (0 : ℚ) < 10 ^ (n.exactPower - n.places) := by positivity
  rw [abs_value, significant, shape]
  constructor
  · have split : ((length + 1 : Nat) : Int) + n.exactPower - n.places - 1
        = (length : Int) + (n.exactPower - n.places) := by push_cast; ring
    rw [split, zpow_add₀ (by norm_num), zpow_natCast]
    exact mul_le_mul_of_nonneg_right lowRat positive.le
  · have split : ((length + 1 : Nat) : Int) + n.exactPower - n.places
        = ((length + 1 : Nat) : Int) + (n.exactPower - n.places) := by ring
    rw [split, zpow_add₀ (by norm_num), zpow_natCast]
    exact mul_lt_mul_of_pos_right highRat positive

/-! ## Which numerals fit -/

/-- The place of the point is what it should be, or out of all reach. -/
theorem point_cases (formed : n.WellFormed) (short : n.chars.length ≤ safeLength) :
    (n.power = n.exactPower ∧ n.layout.point = n.significant.length + n.exactPower - n.places)
      ∨ (2 * (safeLength : Int) < n.layout.point
        ∧ 2 * (safeLength : Int) < n.significant.length + n.exactPower - n.places)
      ∨ (n.layout.point < -2 * (safeLength : Int)
        ∧ n.significant.length + n.exactPower - n.places < -2 * (safeLength : Int)) := by
  have point := n.point_layout
  have digits := n.length_allDigits
  have fewer := n.length_significant_le
  have within := n.length_allDigits_le
  have bound : safeLength = 268435456 := by decide
  have far : Decimal.farExponent = 4611686018427387903 := by decide
  rcases power_cases formed with same | ⟨counted, exact⟩ | ⟨counted, exact⟩
  · exact .inl ⟨same, by omega⟩
  · exact .inr (.inl ⟨by omega, by omega⟩)
  · exact .inr (.inr ⟨by omega, by omega⟩)

theorem length_digits_layout_le (n : Numeral) : n.layout.digits.length ≤ n.allDigits.length :=
  (length_strip_le _).trans n.length_significant_le

/-- A numeral that fits is zero or has its exponent counted as it is. -/
theorem power_of_fits (formed : n.WellFormed) (short : n.chars.length ≤ safeLength)
    (fits : n.fits n.chars.length = true) : n.size = 0 ∨ n.power = n.exactPower := by
  simp only [Numeral.fits, Bool.or_eq_true, List.isEmpty_iff, decide_eq_true_eq,
    digits_layout_eq_nil_iff formed] at fits
  refine fits.imp_right fun fits => ?_
  have stripped := n.length_digits_layout_le
  have within := n.length_allDigits_le
  have bound : safeLength = 268435456 := by decide
  simp only [Layout.fixedLength, Decimal.growthLimit] at fits
  rcases point_cases formed short with ⟨same, _⟩ | ⟨far, _⟩ | ⟨far, _⟩
  · exact same
  · split at fits
    · omega
    · split at fits <;> omega
  · split at fits <;> omega

/-- A value that is a number of 64 bits always fits. -/
theorem fits_of_value_eq (formed : n.WellFormed) (short : n.chars.length ≤ safeLength)
    {k : Nat} (small : k < 2 ^ 64) (same : n.value = k) : n.fits n.chars.length = true := by
  simp only [Numeral.fits, Bool.or_eq_true, List.isEmpty_iff, decide_eq_true_eq,
    digits_layout_eq_nil_iff formed]
  refine or_iff_not_imp_left.2 fun nonzero => ?_
  obtain ⟨low, high⟩ := abs_value_bounds formed nonzero
  rw [same, Nat.abs_cast] at low high
  have positive : 0 < k := by
    rcases Nat.eq_zero_or_pos k with rfl | positive
    · exact absurd low (not_le.2 (by simpa using by positivity))
    · exact positive
  -- The value is between 1 and 10 ^ 20, and so the place of the point is known well
  -- enough.
  have above : (0 : Int) < n.significant.length + n.exactPower - n.places := by
    have one : (10 : ℚ) ^ (0 : Int) < 10 ^ (n.significant.length + n.exactPower - n.places) := by
      refine lt_of_le_of_lt ?_ high
      simpa using by exact_mod_cast positive
    exact (zpow_lt_zpow_iff_right₀ (by norm_num)).1 one
  have below : (n.significant.length : Int) + n.exactPower - n.places - 1 < 20 := by
    have limit : (10 : ℚ) ^ ((n.significant.length : Int) + n.exactPower - n.places - 1)
        < 10 ^ (20 : Int) := by
      refine lt_of_le_of_lt low ?_
      have : (k : ℚ) < 2 ^ 64 := by exact_mod_cast small
      refine this.trans ?_
      norm_num
    exact (zpow_lt_zpow_iff_right₀ (by norm_num)).1 limit
  have bound : safeLength = 268435456 := by decide
  have stripped := n.length_digits_layout_le
  have within := n.length_allDigits_le
  simp only [Layout.fixedLength, Decimal.growthLimit]
  rcases point_cases formed short with ⟨_, point⟩ | ⟨_, far⟩ | ⟨_, far⟩
  · split
    · omega
    · split <;> omega
  · omega
  · omega

end Size

end Numeral

/-! ## What a numeral is read as -/

namespace Decimal

theorem value_make (units : Int) (scale : Nat) :
    (make units scale).value = units / 10 ^ scale := by
  induction scale generalizing units with
  | zero => rfl
  | succ scale induction =>
      rw [make]
      split
      next last =>
        obtain ⟨tens, rfl⟩ := Int.dvd_of_emod_eq_zero last
        rw [Int.mul_ediv_cancel_left _ (by decide), induction, pow_succ]
        push_cast
        field_simp
      next => rfl

theorem value_ofInt (n : Int) : (ofInt n).value = n := by simp [ofInt, value_make]

/-- What a numeral that fits is read as. -/
def ofFitting (n : Numeral) : Decimal :=
  if n.units = 0 then ofInt 0
  else if 0 ≤ n.power - n.places then ofInt (n.units * 10 ^ (n.power - n.places).toNat)
  else make n.units (-(n.power - n.places)).toNat

theorem ofNumeral_eq_ok_iff_fits {n : Numeral} {x : Decimal} :
    ofNumeral n = .ok x ↔ n.fits n.chars.length = true ∧ ofFitting n = x := by
  have read : ofNumeral? n n.chars.length
      = if n.fits n.chars.length then some (ofFitting n) else none := by
    have power (k : Nat) : ((Nat.pow 10 k : Nat) : Int) = 10 ^ k := by simp
    simp only [ofNumeral?, ofFitting, Numeral.units, Numeral.size, Numeral.places, power]
    split
    · split <;> simp only [apply_ite some]
    · rfl
  rw [ofNumeral_eq_ok_iff, read]
  split <;> simp [*]

/-- The value comes from the digits and the power as it is counted. -/
theorem value_ofFitting_eq (n : Numeral) :
    (ofFitting n).value = n.units * 10 ^ (n.power - n.places) := by
  rw [ofFitting]
  split
  next zero => simp [value_ofInt, zero]
  next =>
    split
    next shift =>
      have places : n.power - n.places = ((n.power - n.places).toNat : Int) := by omega
      rw [value_ofInt, places, zpow_natCast, Int.toNat_natCast]
      push_cast
      rfl
    next shift =>
      have places : n.power - n.places = -((-(n.power - n.places)).toNat : Int) := by omega
      rw [value_make, places, zpow_neg, zpow_natCast, neg_neg, Int.toNat_natCast, div_eq_mul_inv]

theorem value_ofFitting {n : Numeral} (exact : n.size = 0 ∨ n.power = n.exactPower) :
    (ofFitting n).value = n.value := by
  rw [value_ofFitting_eq, Numeral.value]
  rcases exact with zero | power
  · simp [Numeral.units, zero]
  · rw [power]

/-- What a numeral is read as has its value. -/
theorem value_of_ofNumeral {n : Numeral} {x : Decimal} (formed : n.WellFormed)
    (short : n.chars.length ≤ Numeral.safeLength) (read : ofNumeral n = .ok x) :
    x.value = n.value := by
  obtain ⟨fits, rfl⟩ := ofNumeral_eq_ok_iff_fits.1 read
  exact value_ofFitting (Numeral.power_of_fits formed short fits)

/-- Two decimal numbers of one value are the same. -/
theorem eq_of_value_eq {x y : Decimal} (same : x.value = y.value) : x = y := by
  -- A number with more places than another one of its value would end in zero.
  have le {x y : Decimal} (same : x.value = y.value) : y.scale ≤ x.scale := by
    by_contra less
    have cross : x.units * 10 ^ (y.scale - x.scale) = y.units := by
      have powers : (10 : ℚ) ^ y.scale = 10 ^ x.scale * 10 ^ (y.scale - x.scale) := by
        rw [← pow_add]
        congr 1
        omega
      rw [value, value, powers, div_eq_div_iff (by positivity) (by positivity)] at same
      have : (x.units : ℚ) * 10 ^ (y.scale - x.scale) = y.units := by
        have positive : (10 : ℚ) ^ x.scale ≠ 0 := by positivity
        apply mul_left_cancel₀ positive
        linarith
      exact_mod_cast this
    obtain ⟨more, shape⟩ : ∃ more, y.scale - x.scale = more + 1 := ⟨y.scale - x.scale - 1, by omega⟩
    rw [shape, pow_succ] at cross
    have last : y.units % 10 = 0 := by
      rw [← cross, ← mul_assoc]
      exact Int.mul_emod_left _ _
    exact y.reduced.resolve_left (by omega) last
  have scale := Nat.le_antisymm (le same.symm) (le same)
  have units : x.units = y.units := by
    rw [value, value, scale, div_left_inj' (by positivity)] at same
    exact_mod_cast same
  obtain ⟨_, _, _⟩ := x
  obtain ⟨_, _, _⟩ := y
  cases scale
  cases units
  rfl

/-- An integer is a number without places behind the point. -/
theorem value_eq_int_iff {x : Decimal} {k : ℤ} : x.value = k ↔ x.scale = 0 ∧ x.units = k := by
  constructor
  · intro same
    rw [eq_of_value_eq (same.trans (value_ofInt k).symm)]
    exact ⟨rfl, rfl⟩
  · rintro ⟨whole, rfl⟩
    rw [value, whole, pow_zero, div_one]

theorem toUnsigned?_eq_some_iff {x : Decimal} {k : Nat} :
    x.toUnsigned? = some k ↔ x.value = k ∧ k < 2 ^ 64 := by
  rw [toUnsigned?_eq_some_iff_units, ← and_assoc, ← value_eq_int_iff, Int.cast_natCast]

theorem toSigned?_eq_some_iff {x : Decimal} {k : ℤ} :
    x.toSigned? = some k ↔ x.value = k ∧ -2 ^ 63 ≤ k ∧ k < 2 ^ 63 := by
  rw [toSigned?_eq_some_iff_units, ← and_assoc, ← value_eq_int_iff]

/-- A numeral is read as an unsigned integer exactly if its value is one. -/
theorem unsigned_iff {n : Numeral} {k : Nat} (formed : n.WellFormed)
    (short : n.chars.length ≤ Numeral.safeLength) :
    (∃ x, ofNumeral n = .ok x ∧ x.toUnsigned? = some k) ↔ n.value = k ∧ k < 2 ^ 64 := by
  constructor
  · rintro ⟨x, read, unsigned⟩
    rw [← value_of_ofNumeral formed short read]
    exact toUnsigned?_eq_some_iff.1 unsigned
  · rintro ⟨same, small⟩
    have read := ofNumeral_eq_ok_iff_fits.2
      ⟨Numeral.fits_of_value_eq formed short small same, rfl⟩
    refine ⟨_, read, toUnsigned?_eq_some_iff.2 ⟨?_, small⟩⟩
    rw [value_of_ofNumeral formed short read, same]

end Decimal

end SignedFacts
