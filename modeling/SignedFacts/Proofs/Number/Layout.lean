import Mathlib.Data.List.Induction
import SignedFacts.Proofs.Number.Value

/-!
# Digits as they stand

A numeral can be written without its exponent from its digits alone: they are written as
they stand, the point is put in its place, and zeros make up what is missing
(`Layout.chars`).  There are three cases, for a point in front of the digits, behind them
and between them, and in each the length is known beforehand (`Layout.length_chars`).

This is the spelling of the number that the numeral spells (`Numeral.chars_of_value_eq`),
where a `Decimal` is spelled from its units and its scale and not from the digits of any
numeral.
-/

namespace SignedFacts

/-! ## Digits without zeros in front -/

namespace Numeral

theorem digitChar_sub {c : Char} (digit : c.isDigit = true) :
    (c.toNat - '0'.toNat).digitChar = c := by
  have low : 48 ≤ c.toNat := (Char.isDigit_iff_toNat.1 digit).1
  have high : c.toNat ≤ 57 := (Char.isDigit_iff_toNat.1 digit).2
  have each : ∀ number < 10, (Nat.digitChar number).toNat = 48 + number := by decide
  have zero : '0'.toNat = 48 := rfl
  rw [← Char.toNat_inj, zero, each _ (by omega)]
  omega

theorem ofDigitChars_append_one (text : List Char) (c : Char) :
    Nat.ofDigitChars 10 (text ++ [c]) 0
      = 10 * Nat.ofDigitChars 10 text 0 + (c.toNat - '0'.toNat) := by
  rw [Nat.ofDigitChars_append, Nat.ofDigitChars_cons, Nat.ofDigitChars_nil]

/-- Digits with no zero in front are the digits of their number. -/
theorem toDigits_ofDigitChars {text : List Char} (isDigits : IsDigits text)
    (first : text.head? ≠ some '0') :
    Nat.toDigits 10 (Nat.ofDigitChars 10 text 0) = text := by
  induction text using List.reverseRecOn with
  | nil => exact absurd rfl isDigits.1
  | append_singleton text c induction =>
      have digit := isDigits.2 c (List.mem_append_right text (.head _))
      have small := digit_lt digit
      have zero : '0'.toNat = 48 := rfl
      rw [ofDigitChars_append_one]
      cases text with
      | nil =>
          rw [Nat.ofDigitChars_nil, Nat.toDigits_of_lt_base (by omega), Nat.mul_zero, Nat.zero_add,
            digitChar_sub digit]
          rfl
      | cons d text =>
          have others : IsDigits (d :: text) :=
            ⟨List.cons_ne_nil _ _, fun x member => isDigits.2 x (List.mem_append_left _ member)⟩
          have front : d ≠ '0' := by simpa using first
          have large := @le_ofDigitChars d text (others.2 d (.head _)) front
          have positive := Nat.pow_pos (n := text.length) (show 0 < 10 by decide)
          have before := induction others (by simpa using front)
          rw [Nat.toDigits_of_base_le (by decide) (by omega), Nat.mul_add_div (by decide),
            Nat.div_eq_of_lt (by omega), Nat.add_zero, before, Nat.mul_add_mod,
            Nat.mod_eq_of_lt (by omega), digitChar_sub digit]

/-- A number is a multiple of ten exactly if its last digit is zero. -/
theorem ofDigitChars_mod_eq_zero_iff {text : List Char} (isDigits : IsDigits text) :
    Nat.ofDigitChars 10 text 0 % 10 = 0 ↔ text.getLast? = some '0' := by
  obtain ⟨front, last, rfl⟩ := (List.eq_nil_or_concat' text).resolve_left isDigits.1
  have digit := isDigits.2 last (List.mem_append_right front (.head _))
  have low : 48 ≤ last.toNat := (Char.isDigit_iff_toNat.1 digit).1
  have small := digit_lt digit
  have zero : '0'.toNat = 48 := rfl
  rw [ofDigitChars_append_one, List.getLast?_append_of_ne_nil _ (List.cons_ne_nil _ _),
    List.getLast?_singleton, Option.some.injEq, ← Char.toNat_inj, zero]
  omega

end Numeral

/-! ## Laying digits out -/

namespace Layout

/-- The digits as they stand with the point in its place, where zeros make up what is
missing. -/
def chars (layout : Layout) : List Char :=
  if layout.point ≤ 0 then
    '0' :: '.' :: (List.replicate (-layout.point).toNat '0' ++ layout.digits)
  else if (layout.digits.length : Int) ≤ layout.point then
    layout.digits ++ List.replicate (layout.point - layout.digits.length).toNat '0'
  else layout.digits.take layout.point.toNat ++ '.' :: layout.digits.drop layout.point.toNat

/-- The length is known before any digit is written. -/
theorem length_chars (layout : Layout) : (layout.chars.length : Int) = layout.fixedLength := by
  rw [chars, fixedLength]
  split
  next =>
    simp only [List.length_cons, List.length_append, List.length_replicate]
    omega
  next =>
    split
    next =>
      simp only [List.length_append, List.length_replicate]
      omega
    next =>
      simp only [List.length_append, List.length_cons, List.length_take, List.length_drop]
      omega

/-- There are digits, and no zero stands first or last. -/
structure Reduced (layout : Layout) : Prop where
  digits : Numeral.IsDigits layout.digits
  first : layout.digits.head? ≠ some '0'
  last : layout.digits.getLast? ≠ some '0'

/-- The digits as a number with a sign. -/
def units (layout : Layout) (negative : Bool) : Int :=
  if negative then -(Nat.ofDigitChars 10 layout.digits 0 : Int)
  else Nat.ofDigitChars 10 layout.digits 0

/-- The decimal number that is laid out. -/
def decimal (layout : Layout) (negative : Bool) : Decimal :=
  if (layout.digits.length : Int) ≤ layout.point then
    .ofInt (layout.units negative * 10 ^ (layout.point - layout.digits.length).toNat)
  else .make (layout.units negative) (layout.digits.length - layout.point).toNat

variable {layout : Layout} {negative : Bool}

theorem value_decimal :
    (layout.decimal negative).value
      = layout.units negative * 10 ^ (layout.point - layout.digits.length) := by
  rw [decimal]
  split
  next whole =>
    have shift : layout.point - layout.digits.length
        = ((layout.point - layout.digits.length).toNat : Int) := by omega
    rw [Decimal.value_ofInt, Int.cast_mul, Int.cast_pow, shift, zpow_natCast]
    rfl
  next =>
    have shift : layout.point - layout.digits.length
        = -((layout.digits.length - layout.point).toNat : Int) := by omega
    rw [Decimal.value_make, shift, zpow_neg, zpow_natCast, div_eq_mul_inv]

namespace Reduced

theorem last_ne (reduced : layout.Reduced) : Nat.ofDigitChars 10 layout.digits 0 % 10 ≠ 0 :=
  fun zero => reduced.last ((Numeral.ofDigitChars_mod_eq_zero_iff reduced.digits).1 zero)

theorem units_mod (reduced : layout.Reduced) : layout.units negative % 10 ≠ 0 := by
  have last := reduced.last_ne
  rw [units]
  split <;> omega

theorem natAbs_units (layout : Layout) (negative : Bool) :
    (layout.units negative).natAbs = Nat.ofDigitChars 10 layout.digits 0 := by
  rw [units]
  split
  · rw [Int.natAbs_neg, Int.natAbs_natCast]
  · rw [Int.natAbs_natCast]

theorem units_neg_iff (reduced : layout.Reduced) :
    layout.units negative < 0 ↔ negative = true := by
  have last := reduced.last_ne
  rw [units]
  cases negative
  · simp
  · simp
    omega

/-- Zeros behind the digits multiply the number. -/
theorem toDigits_shifted (reduced : layout.Reduced) (zeros : Nat) :
    Nat.toDigits 10 (Nat.ofDigitChars 10 layout.digits 0 * 10 ^ zeros)
      = layout.digits ++ List.replicate zeros '0' := by
  have value : Nat.ofDigitChars 10 (layout.digits ++ List.replicate zeros '0') 0
      = Nat.ofDigitChars 10 layout.digits 0 * 10 ^ zeros := by
    rw [Nat.ofDigitChars_append, Nat.ofDigitChars_replicate_zero, Nat.mul_comm]
  rw [← value]
  refine Numeral.toDigits_ofDigitChars ⟨?_, ?_⟩ ?_
  · exact List.append_ne_nil_of_left_ne_nil reduced.digits.1 _
  · intro c member
    rcases List.mem_append.1 member with digit | zero
    · exact reduced.digits.2 c digit
    · rw [List.eq_of_mem_replicate zero]
      rfl
  · rw [List.head?_append_of_ne_nil _ reduced.digits.1]
    exact reduced.first

/-- With places behind the point, the digits are padded up to it. -/
theorem unsignedChars_places (reduced : layout.Reduced)
    (places : layout.point < layout.digits.length) :
    Decimal.unsignedChars (Nat.ofDigitChars 10 layout.digits 0)
        (layout.digits.length - layout.point).toNat
      = layout.chars := by
  have digits := Numeral.toDigits_ofDigitChars reduced.digits reduced.first
  have some : (layout.digits.length - layout.point).toNat ≠ 0 := by omega
  rw [Decimal.unsignedChars, if_neg some, Decimal.paddedDigits, digits, chars]
  split
  next before =>
    -- All digits stand behind the point, so one of the zeros is in front of it.
    have zeros : (layout.digits.length - layout.point).toNat + 1 - layout.digits.length
        = (-layout.point).toNat + 1 := by omega
    have front : (List.replicate ((-layout.point).toNat + 1) '0' ++ layout.digits).length
        - (layout.digits.length - layout.point).toNat = 1 := by
      simp only [List.length_append, List.length_replicate]
      omega
    simp only [zeros, front]
    rfl
  next behind =>
    have zeros : (layout.digits.length - layout.point).toNat + 1 - layout.digits.length = 0 := by
      omega
    have front : layout.digits.length - (layout.digits.length - layout.point).toNat
        = layout.point.toNat := by omega
    rw [if_neg (by omega)]
    simp only [zeros, List.replicate_zero, List.nil_append, front]

/-- The number that is laid out is spelled as the digits stand. -/
theorem chars_decimal (reduced : layout.Reduced) :
    (layout.decimal negative).chars = (if negative then ['-'] else []) ++ layout.chars := by
  have sign := @units_neg_iff _ negative reduced
  have length := List.length_pos_iff.2 reduced.digits.1
  rw [decimal]
  split
  next whole =>
    have positive : (0 : Int) < 10 ^ (layout.point - layout.digits.length).toNat := by positivity
    have below : layout.units negative * 10 ^ (layout.point - layout.digits.length).toNat < 0
        ↔ negative = true := by
      rw [mul_neg_iff, ← sign]
      omega
    have size : (layout.units negative * 10 ^ (layout.point - layout.digits.length).toNat).natAbs
        = Nat.ofDigitChars 10 layout.digits 0 * 10 ^ (layout.point - layout.digits.length).toNat := by
      rw [Int.natAbs_mul, natAbs_units, Int.natAbs_pow]
      rfl
    have inside : ¬ layout.point ≤ 0 := by omega
    rw [Decimal.ofInt, Decimal.make, Decimal.chars, chars, if_neg inside, if_pos whole]
    simp only [below, size, Decimal.unsignedChars, if_true, toDigits_shifted reduced]
  next places =>
    have spelled := unsignedChars_places reduced (Int.not_le.1 places)
    obtain ⟨scale, shape⟩ : ∃ scale, (layout.digits.length - layout.point).toNat = scale + 1 :=
      ⟨(layout.digits.length - layout.point).toNat - 1, by omega⟩
    rw [shape] at spelled ⊢
    rw [Decimal.make, dif_neg (units_mod reduced), Decimal.chars]
    simp only [sign, natAbs_units, spelled]

end Reduced

end Layout

/-! ## The layout of a numeral -/

namespace Numeral

variable {n : Numeral}

/-- The significant digits and the place of the point, for the exponent as it is spelled. -/
def exactLayout (n : Numeral) : Layout :=
  { digits := n.layout.digits
    point := n.significant.length + n.exactPower - n.places }

/-- An exponent that is counted as it is gives the point its place. -/
theorem layout_eq_exactLayout (power : n.power = n.exactPower) : n.layout = n.exactLayout := by
  have point := n.point_layout
  rw [exactLayout, ← power, ← point]

/-- Behind the digits of a layout only zeros are left out. -/
theorem exists_zeros (n : Numeral) :
    ∃ zeros, n.significant = n.layout.digits ++ List.replicate zeros '0' := by
  have split := List.takeWhile_append_dropWhile (p := (· = '0')) (l := n.significant.reverse)
  have zeros : n.significant.reverse.takeWhile (· = '0')
      = List.replicate (n.significant.reverse.takeWhile (· = '0')).length '0' := by
    refine List.eq_replicate_iff.2 ⟨rfl, fun c member => ?_⟩
    exact of_decide_eq_true (List.all_eq_true.1 List.all_takeWhile c member)
  refine ⟨(n.significant.reverse.takeWhile (· = '0')).length, ?_⟩
  have whole := congrArg List.reverse split
  rw [List.reverse_append, List.reverse_reverse, zeros, List.reverse_replicate] at whole
  exact whole.symm

theorem reduced_exactLayout (formed : n.WellFormed) (nonzero : n.size ≠ 0) :
    n.exactLayout.Reduced := by
  have filled : n.layout.digits ≠ [] := fun empty =>
    nonzero ((digits_layout_eq_nil_iff formed).1 empty)
  obtain ⟨zeros, shape⟩ := n.exists_zeros
  refine ⟨⟨filled, fun c member => ?_⟩, fun zero => ?_, fun zero => ?_⟩
  · have inside : c ∈ n.significant := shape ▸ List.mem_append_left _ member
    exact isDigit_of_mem_allDigits formed c ((List.dropWhile_sublist _).mem inside)
  · -- The first digit is the first significant one.
    have first := List.head?_dropWhile_not (· = '0') n.allDigits
    rw [← significant, shape, List.head?_append_of_ne_nil _ filled] at first
    rw [exactLayout] at zero
    simp [zero] at first
  · -- The last digit is where the zeros at the end stop.
    have last := List.head?_dropWhile_not (· = '0') n.significant.reverse
    rw [exactLayout, layout, List.getLast?_reverse] at zero
    rw [significant, zero] at last
    simp at last

/-- What is laid out is the number that the numeral spells. -/
theorem value_exactLayout (n : Numeral) :
    (n.exactLayout.decimal n.negative).value = n.value := by
  obtain ⟨zeros, shape⟩ := n.exists_zeros
  have size : n.size = Nat.ofDigitChars 10 n.layout.digits 0 * 10 ^ zeros := by
    rw [Numeral.size, ← ofDigitChars_dropZeros, ← significant, shape, Nat.ofDigitChars_append,
      Nat.ofDigitChars_replicate_zero, Nat.mul_comm]
  have units : n.units = n.exactLayout.units n.negative * 10 ^ zeros := by
    rw [Numeral.units, size, Layout.units, exactLayout]
    split <;> push_cast <;> ring
  have length := congrArg List.length shape
  rw [List.length_append, List.length_replicate] at length
  have shift : n.exactLayout.point - n.exactLayout.digits.length
      = (zeros : Int) + (n.exactPower - n.places) := by
    simp only [exactLayout, length]
    push_cast
    ring
  rw [Layout.value_decimal, shift, zpow_add₀ (by norm_num), zpow_natCast, value, units]
  push_cast
  ring

/-- A number that is not zero is spelled as the numeral's digits stand. -/
theorem chars_of_value_eq {x : Decimal} (formed : n.WellFormed) (nonzero : n.size ≠ 0)
    (same : x.value = n.value) : x.chars = n.signChars ++ n.exactLayout.chars := by
  rw [Decimal.eq_of_value_eq (same.trans n.value_exactLayout.symm),
    (reduced_exactLayout formed nonzero).chars_decimal]
  rfl

end Numeral

end SignedFacts
