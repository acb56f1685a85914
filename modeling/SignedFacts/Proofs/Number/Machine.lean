import Mathlib.Algebra.Group.Int.Defs
import Mathlib.Algebra.Group.Nat.Defs
import SignedFacts.Proofs.Number.Spelling

/-!
# Machine integers

A text is read as a machine integer exactly if it is made of digits and the number they spell is
in the range, and a sign in front is taken off (`Machine.digits?_eq_some_iff`).  The reader
looks at the number after every digit, which is enough, since a number only grows with more
digits behind it.

For the spelling of a decimal number this says that the number is an integer in the range
(`Decimal.toUnsigned?_eq_some_iff_units`, `Decimal.toSigned?_eq_some_iff_units`).
-/

namespace SignedFacts

/-! ## Reading digits -/

namespace Machine

variable {bound : Nat} {text : List Char}

theorem le_ofDigitChars (number : Nat) (text : List Char) :
    number ≤ Nat.ofDigitChars 10 text number := by
  induction text generalizing number with
  | nil => exact Nat.le_refl number
  | cons c text induction =>
      rw [Nat.ofDigitChars_cons]
      exact Nat.le_trans (by omega) (induction _)

/-- What is in the range at the end was in the range all along. -/
theorem digitsOnto?_eq_some_iff {number k : Nat} (below : number < bound) :
    digitsOnto? bound number text = some k
      ↔ (∀ c ∈ text, c.isDigit = true) ∧ Nat.ofDigitChars 10 text number = k ∧ k < bound := by
  induction text generalizing number with
  | nil =>
      simp only [digitsOnto?, Option.some.injEq, List.not_mem_nil, false_implies, implies_true,
        true_and, Nat.ofDigitChars_nil]
      exact ⟨fun same => ⟨same, same ▸ below⟩, fun both => both.1⟩
  | cons c text induction =>
      have code : '0'.toNat = 48 := rfl
      rw [digitsOnto?, List.forall_mem_cons, Nat.ofDigitChars_cons, code]
      split
      next step => rw [induction step.2, and_iff_right step.1]
      next stop =>
        refine iff_of_false nofun fun ⟨⟨digit, _⟩, same, small⟩ => stop ⟨digit, ?_⟩
        exact Nat.lt_of_le_of_lt (le_ofDigitChars _ text) (same ▸ small)

theorem digits?_eq_some_iff {k : Nat} (positive : 0 < bound) :
    digits? bound text = some k
      ↔ Numeral.IsDigits text ∧ Nat.ofDigitChars 10 text 0 = k ∧ k < bound := by
  rw [digits?, Numeral.IsDigits]
  cases text with
  | nil => exact iff_of_false nofun fun digits => digits.1.1 rfl
  | cons c text =>
      rw [if_neg (by simp), digitsOnto?_eq_some_iff positive]
      simp

/-- A digit in front is no sign. -/
theorem unsigned?_of_digit {c : Char} {rest : List Char} (shape : text = c :: rest)
    (digit : c.isDigit = true) : unsigned? bound text = digits? bound text := by
  rw [shape, unsigned?.eq_def]
  split
  next same =>
    rw [(List.cons.inj same).1] at digit
    exact absurd digit (by decide)
  next => rfl

theorem signed?_of_digit {c : Char} {rest : List Char} (shape : text = c :: rest)
    (digit : c.isDigit = true) : signed? bound text = (digits? bound text).map Int.ofNat := by
  rw [shape, signed?.eq_def]
  split
  next same =>
    rw [(List.cons.inj same).1] at digit
    exact absurd digit (by decide)
  next same =>
    rw [(List.cons.inj same).1] at digit
    exact absurd digit (by decide)
  next => rfl

end Machine

/-! ## The spelling of a decimal number -/

namespace Decimal

variable {number scale bound : Nat} {x : Decimal}

theorem unsignedChars_zero (number : Nat) : unsignedChars number 0 = Nat.toDigits 10 number := by
  rw [unsignedChars, if_pos rfl]

/-- A number with places behind the point has a point. -/
theorem point_mem_unsignedChars_iff : '.' ∈ unsignedChars number scale ↔ scale ≠ 0 := by
  by_cases whole : scale = 0
  · rw [whole, unsignedChars_zero]
    refine iff_of_false (fun point => ?_) (not_not_intro rfl)
    exact absurd ((isDigits_toDigits number).2 _ point) (by decide)
  · exact iff_of_true (by simp [unsignedChars, whole]) whole

theorem isDigits_unsignedChars_iff : Numeral.IsDigits (unsignedChars number scale) ↔ scale = 0 := by
  constructor
  · intro digits
    have noPoint : '.' ∉ unsignedChars number scale := fun point =>
      absurd (digits.2 _ point) (by decide)
    exact Decidable.not_not.1 (mt point_mem_unsignedChars_iff.2 noPoint)
  · rintro rfl
    rw [unsignedChars_zero]
    exact isDigits_toDigits number

theorem exists_unsignedChars_eq_cons (number scale : Nat) :
    ∃ c rest, unsignedChars number scale = c :: rest ∧ c.isDigit = true := by
  have digits {text : List Char} (digits : Numeral.IsDigits text) (behind : List Char) :
      ∃ c rest, text ++ behind = c :: rest ∧ c.isDigit = true := by
    obtain ⟨c, rest, rfl⟩ := List.exists_cons_of_ne_nil digits.1
    exact ⟨c, rest ++ behind, rfl, digits.2 c (.head _)⟩
  by_cases whole : scale = 0
  · rw [whole, unsignedChars_zero, ← List.append_nil (Nat.toDigits 10 number)]
    exact digits (isDigits_toDigits number) []
  · rw [unsignedChars, if_neg whole]
    exact digits isDigits_whole _

theorem digits?_unsignedChars {k : Nat} (positive : 0 < bound) :
    Machine.digits? bound (unsignedChars number scale) = some k
      ↔ scale = 0 ∧ number = k ∧ k < bound := by
  rw [Machine.digits?_eq_some_iff positive, isDigits_unsignedChars_iff]
  refine and_congr_right ?_
  rintro rfl
  rw [unsignedChars_zero, Nat.ofDigitChars_ten_toDigits]

theorem chars_of_nonneg (nonneg : 0 ≤ x.units) :
    x.chars = unsignedChars x.units.natAbs x.scale := by
  rw [chars, if_neg (by omega), List.nil_append]

theorem chars_of_neg (neg : x.units < 0) :
    x.chars = '-' :: unsignedChars x.units.natAbs x.scale := by
  rw [chars, if_pos neg, List.singleton_append]

/-- The spelling has no point exactly if there are no places behind one. -/
theorem isInteger_iff : x.isInteger = true ↔ x.scale = 0 := by
  have sign : '.' ∉ if x.units < 0 then ['-'] else [] := by
    split
    next => decide
    next => exact List.not_mem_nil
  rw [isInteger, Bool.not_eq_true', ← Bool.not_eq_true, List.contains_iff_mem, chars,
    List.mem_append, or_iff_right sign, point_mem_unsignedChars_iff, Decidable.not_not]

theorem toUnsigned?_eq_some_iff_units {k : Nat} :
    x.toUnsigned? = some k ↔ x.scale = 0 ∧ x.units = k ∧ k < 2 ^ 64 := by
  obtain ⟨c, rest, shape, digit⟩ := exists_unsignedChars_eq_cons x.units.natAbs x.scale
  have size : UInt64.size = 2 ^ 64 := rfl
  rw [toUnsigned?, size]
  by_cases neg : x.units < 0
  · -- A minus sign is no digit.
    have none : Machine.unsigned? (2 ^ 64) x.chars ≠ some k := fun read => by
      rw [chars_of_neg neg] at read
      have digits := ((Machine.digits?_eq_some_iff (by decide)).1 read).1
      exact absurd (digits.2 _ (.head _)) (by decide)
    exact iff_of_false none fun whole => by omega
  · rw [chars_of_nonneg (by omega), Machine.unsigned?_of_digit shape digit,
      digits?_unsignedChars (by decide)]
    omega

theorem toSigned?_eq_some_iff_units {k : Int} :
    x.toSigned? = some k ↔ x.scale = 0 ∧ x.units = k ∧ -2 ^ 63 ≤ k ∧ k < 2 ^ 63 := by
  obtain ⟨c, rest, shape, digit⟩ := exists_unsignedChars_eq_cons x.units.natAbs x.scale
  have size : Nat.pow 2 63 = 2 ^ 63 := rfl
  rw [toSigned?, size]
  by_cases neg : x.units < 0
  · rw [chars_of_neg neg, Machine.signed?]
    simp only [Option.map_eq_some_iff, digits?_unsignedChars (Nat.succ_pos _)]
    constructor
    · rintro ⟨number, ⟨whole, same, small⟩, rfl⟩
      omega
    · rintro ⟨whole, rfl, low, high⟩
      exact ⟨x.units.natAbs, ⟨whole, rfl, by omega⟩, by omega⟩
  · rw [chars_of_nonneg (by omega), Machine.signed?_of_digit shape digit]
    simp only [Option.map_eq_some_iff, digits?_unsignedChars (show 0 < 2 ^ 63 by decide)]
    constructor
    · rintro ⟨number, ⟨whole, same, small⟩, rfl⟩
      refine ⟨whole, ?_, ?_, ?_⟩ <;> simp only [Int.ofNat_eq_natCast] <;> omega
    · rintro ⟨whole, rfl, low, high⟩
      exact ⟨x.units.natAbs, ⟨whole, rfl, by omega⟩, by simp only [Int.ofNat_eq_natCast]; omega⟩

end Decimal

end SignedFacts
