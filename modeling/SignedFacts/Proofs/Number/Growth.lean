import SignedFacts.Proofs.Number.Acceptance

/-!
# How much a number grows

A number that is read from a numeral is written as the digits of the numeral stand
(`Decimal.chars_of_ofNumeral`).  Without an exponent it is written in no more characters
than the numeral (`Decimal.length_chars_le_of_plain`), and with one it grows by the limit
and a minus sign at most (`Decimal.length_chars_le`).  This holds of numerals of any length.
An exponent that is counted as one that is too far away is one that is spelled so
(`Numeral.counted`).
-/

namespace SignedFacts

namespace Numeral

variable {n : Numeral}

theorem length_chars_pos (formed : n.WellFormed) : 0 < n.chars.length := by
  have whole := List.length_pos_iff.2 formed.whole.1
  simp only [chars, List.length_append]
  omega

/-- The numeral with its exponent as it is counted. -/
def counted (n : Numeral) : Numeral :=
  { n with exponent := n.exponent.map fun e => ⟨e.sign, Nat.toDigits 10 e.magnitude⟩ }

theorem wellFormed_counted (formed : n.WellFormed) : n.counted.WellFormed where
  whole := formed.whole
  fraction := formed.fraction
  exponent := by
    intro e present
    obtain ⟨spelled, _, rfl⟩ := Option.map_eq_some_iff.1 present
    exact Decimal.isDigits_toDigits _

theorem exactPower_counted (n : Numeral) : n.counted.exactPower = n.power := by
  cases present : n.exponent with
  | none => simp [exactPower, power, counted, present]
  | some e =>
      have same : Nat.ofDigitChars 10 (Nat.toDigits 10 e.magnitude) 0 = e.magnitude :=
        Nat.ofDigitChars_ten_toDigits
      cases sign : e.sign <;>
        simp [exactPower, power, counted, present, Exponent.exact, Exponent.value, sign, same]

theorem exactLayout_counted (n : Numeral) : n.counted.exactLayout = n.layout := by
  have point := n.point_layout
  rw [exactLayout, exactPower_counted]
  exact congrArg (Layout.mk _) point.symm

theorem value_counted (n : Numeral) : n.counted.value = n.units * 10 ^ (n.power - n.places) := by
  rw [value, exactPower_counted]
  rfl

end Numeral

namespace Decimal

variable {n : Numeral} {x : Decimal}

/-- A number that is not zero is written as the digits of its numeral stand. -/
theorem chars_of_ofNumeral (formed : n.WellFormed) (nonzero : n.size ≠ 0)
    (read : ofNumeral n = .ok x) : x.chars = n.signChars ++ n.layout.chars := by
  obtain ⟨_, rfl⟩ := ofNumeral_eq_ok_iff_fits.1 read
  have same := (value_ofFitting_eq n).trans n.value_counted.symm
  rw [Numeral.chars_of_value_eq (Numeral.wellFormed_counted formed) nonzero same,
    n.exactLayout_counted]
  rfl

theorem chars_of_ofNumeral_zero (zero : n.size = 0) (read : ofNumeral n = .ok x) :
    x.chars = ['0'] := by
  obtain ⟨_, rfl⟩ := ofNumeral_eq_ok_iff_fits.1 read
  have none : n.units = 0 := by simp [Numeral.units, zero]
  rw [ofFitting, if_pos none]
  rfl

/-- The length of what is written is the one that the limit is about, with the sign. -/
theorem length_chars_of_ofNumeral (formed : n.WellFormed) (nonzero : n.size ≠ 0)
    (read : ofNumeral n = .ok x) :
    (x.chars.length : Int) = n.signChars.length + n.layout.fixedLength := by
  rw [chars_of_ofNumeral formed nonzero read, List.length_append, ← Layout.length_chars]
  push_cast
  rfl

/-- A number grows by the limit at most, and by a sign that the limit leaves out. -/
theorem length_chars_le (formed : n.WellFormed) (read : ofNumeral n = .ok x) :
    x.chars.length ≤ n.chars.length + growthLimit + 1 := by
  by_cases zero : n.size = 0
  · rw [chars_of_ofNumeral_zero zero read, List.length_singleton]
    omega
  · have length := length_chars_of_ofNumeral formed zero read
    have sign : n.signChars.length ≤ 1 := by cases negative : n.negative <;>
      simp [Numeral.signChars, negative]
    obtain ⟨fits, _⟩ := ofNumeral_eq_ok_iff_fits.1 read
    have digits := mt (Numeral.digits_layout_eq_nil_iff formed).1 zero
    simp only [Numeral.fits, Bool.or_eq_true, List.isEmpty_iff, digits, false_or,
      decide_eq_true_eq] at fits
    omega

/-- Without an exponent a number does not grow. -/
theorem length_chars_le_of_plain (formed : n.WellFormed) (plain : n.exponent = none)
    (read : ofNumeral n = .ok x) : x.chars.length ≤ n.chars.length := by
  by_cases zero : n.size = 0
  · rw [chars_of_ofNumeral_zero zero read]
    exact Numeral.length_chars_pos formed
  · have length := length_chars_of_ofNumeral formed zero read
    have whole := List.length_pos_iff.2 formed.whole.1
    have digits := List.length_pos_iff.2 (mt (Numeral.digits_layout_eq_nil_iff formed).1 zero)
    have stripped := Numeral.length_strip_le (p := (· = '0')) n.significant
    have significant := n.length_significant_le
    have all := n.length_allDigits
    have point := n.point_layout
    have written : n.chars.length
        = n.signChars.length + n.whole.length + (Numeral.fractionChars n.fraction).length := by
      simp [Numeral.chars, Numeral.signChars, Numeral.exponentChars, plain, Nat.add_assoc]
    have power : n.power = 0 := by simp [Numeral.power, plain]
    -- A point among the digits or in front of them is one that the numeral has, too.
    have fraction : (Numeral.fractionChars n.fraction).length = if n.places = 0 then 0
        else n.places + 1 := by
      cases present : n.fraction with
      | none => simp [Numeral.fractionChars, Numeral.places, present]
      | some places =>
          have filled := List.length_pos_iff.2 (formed.fraction places present).1
          simp [Numeral.fractionChars, Numeral.places, present, Nat.ne_of_gt filled]
    rw [Layout.fixedLength] at length
    change n.layout.digits.length ≤ _ at stripped
    split at length <;> split at fraction <;> try split at length
    all_goals omega

end Decimal

end SignedFacts
