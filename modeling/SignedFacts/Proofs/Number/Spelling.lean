import SignedFacts.Number.Decimal
import SignedFacts.Proofs.Number.Grammar

/-!
# The spelling of decimal numbers

A decimal number is spelled without an exponent, so its spelling is that of a
numeral, `Decimal.numeral`, and the value of that numeral is the number again
(`Decimal.ofNumeral_numeral`).  A numeral without an exponent always fits.
-/

namespace SignedFacts

/-! ## Numerals without an exponent -/

namespace Numeral

theorem length_dropWhile_le {p : Char → Bool} (text : List Char) :
    (text.dropWhile p).length ≤ text.length :=
  (List.dropWhile_sublist p).length_le

theorem length_strip_le {p : Char → Bool} (text : List Char) :
    ((text.reverse.dropWhile p).reverse).length ≤ text.length := by
  simpa using length_dropWhile_le (p := p) text.reverse

theorem length_allDigits_le (n : Numeral) : n.allDigits.length ≤ n.chars.length := by
  cases fraction : n.fraction <;> simp [allDigits, chars, fractionChars, fraction] <;> omega

/-- Written out, a numeral without an exponent grows by a zero and a point at
most. -/
theorem fits_of_exponent_none {n : Numeral} (plain : n.exponent = none) :
    n.fits n.chars.length = true := by
  have digits := length_dropWhile_le (p := (· = '0')) n.allDigits
  have stripped := length_strip_le (p := (· = '0')) (n.allDigits.dropWhile (· = '0'))
  have short := n.length_allDigits_le
  have whole : n.whole.length ≤ n.allDigits.length := by simp [allDigits]
  simp only [fits, layout, power, plain, Layout.fixedLength, Decimal.growthLimit, Option.map_none,
    Option.getD_none, Bool.or_eq_true, decide_eq_true_eq]
  right
  split
  · omega
  · split <;> omega

end Numeral

/-! ## Digits -/

namespace Decimal

theorem head_toDigits {number : Nat} (positive : 0 < number) :
    (Nat.toDigits 10 number).head? ≠ some '0' := by
  induction number using Nat.strongRecOn with
  | ind number induction =>
      rw [Nat.toDigits_eq_if (by decide)]
      split
      · simp only [List.head?_cons, ne_eq, Option.some.injEq, Nat.digitChar_eq_zero]
        omega
      · obtain ⟨first, more, shape⟩ :=
          List.exists_cons_of_ne_nil (@Nat.toDigits_ne_nil (number / 10) 10)
        have earlier := induction (number / 10) (by omega) (by omega)
        rw [shape] at earlier ⊢
        exact earlier

theorem isDigits_toDigits (number : Nat) : Numeral.IsDigits (Nat.toDigits 10 number) :=
  ⟨Nat.toDigits_ne_nil, fun _ => Nat.isDigit_of_mem_toDigits (by decide) (by decide)⟩

section Padded

variable {number scale : Nat}

theorem length_paddedDigits : scale < (paddedDigits number scale).length := by
  simp only [paddedDigits, List.length_append, List.length_replicate]
  omega

theorem isDigit_of_mem_paddedDigits {c : Char} (member : c ∈ paddedDigits number scale) :
    c.isDigit = true := by
  rcases List.mem_append.1 member with zero | digit
  · obtain rfl := List.eq_of_mem_replicate zero
    rfl
  · exact (isDigits_toDigits number).2 c digit

theorem value_paddedDigits : Nat.ofDigitChars 10 (paddedDigits number scale) 0 = number := by
  simp [paddedDigits, Nat.ofDigitChars_append]

/-- There are digits in front of the point. -/
theorem isDigits_whole :
    Numeral.IsDigits
      ((paddedDigits number scale).take ((paddedDigits number scale).length - scale)) := by
  have length := @length_paddedDigits number scale
  refine ⟨fun empty => ?_, fun c member =>
    isDigit_of_mem_paddedDigits (List.mem_of_mem_take member)⟩
  have := congrArg List.length empty
  simp only [List.length_take, List.length_nil] at this
  omega

/-- Behind the point there are as many digits as places. -/
theorem length_places :
    ((paddedDigits number scale).drop ((paddedDigits number scale).length - scale)).length
      = scale := by
  have length := @length_paddedDigits number scale
  rw [List.length_drop]
  omega

/-- In front of the point stands a single zero, or a digit that is none. -/
theorem head_paddedDigits (positive : 0 < number) :
    let whole := (paddedDigits number scale).take ((paddedDigits number scale).length - scale)
    whole = ['0'] ∨ whole.head? ≠ some '0' := by
  by_cases short : (Nat.toDigits 10 number).length ≤ scale
  · left
    obtain ⟨zeros, more⟩ : ∃ zeros, scale + 1 - (Nat.toDigits 10 number).length = zeros + 1 :=
      ⟨scale - (Nat.toDigits 10 number).length, by omega⟩
    have length : (paddedDigits number scale).length - scale = 1 := by
      simp only [paddedDigits, List.length_append, List.length_replicate]
      omega
    rw [length, paddedDigits, more, List.replicate_succ]
    rfl
  · right
    have none : scale + 1 - (Nat.toDigits 10 number).length = 0 := by omega
    rw [paddedDigits, none, List.replicate_zero, List.nil_append, List.head?_take,
      if_neg (by omega)]
    exact head_toDigits positive

end Padded

/-! ## The numeral of a decimal number -/

/-- The spelling of a decimal number, as a numeral. -/
def numeral (x : Decimal) : Numeral where
  negative := decide (x.units < 0)
  whole :=
    (paddedDigits x.units.natAbs x.scale).take
      ((paddedDigits x.units.natAbs x.scale).length - x.scale)
  fraction :=
    if x.scale = 0 then none
    else
      some ((paddedDigits x.units.natAbs x.scale).drop
        ((paddedDigits x.units.natAbs x.scale).length - x.scale))
  exponent := none

/-- Without places behind the point no zeros are put in front. -/
theorem paddedDigits_zero (number : Nat) : paddedDigits number 0 = Nat.toDigits 10 number := by
  have positive := @Nat.length_toDigits_pos 10 number
  have none : 0 + 1 - (Nat.toDigits 10 number).length = 0 := by omega
  simp only [paddedDigits, none, List.replicate_zero, List.nil_append]

theorem numeral_ofInt (n : Nat) : (ofInt n).numeral = ⟨false, Nat.toDigits 10 n, none, none⟩ := by
  have positive : ¬ (n : Int) < 0 := by omega
  simp [numeral, ofInt, make, paddedDigits_zero, positive]

theorem chars_numeral (x : Decimal) : x.numeral.chars = x.chars := by
  by_cases whole : x.scale = 0
  · simp [Numeral.chars, numeral, chars, unsignedChars, whole, paddedDigits_zero,
      Numeral.fractionChars, Numeral.exponentChars]
  · simp [Numeral.chars, numeral, chars, unsignedChars, whole, Numeral.fractionChars,
      Numeral.exponentChars]

theorem allDigits_numeral (x : Decimal) :
    x.numeral.allDigits = paddedDigits x.units.natAbs x.scale := by
  by_cases whole : x.scale = 0 <;> simp [Numeral.allDigits, numeral, whole]

theorem wellFormed_numeral (x : Decimal) : x.numeral.WellFormed where
  whole := isDigits_whole
  fraction := by
    intro digits present
    by_cases whole : x.scale = 0
    · simp [numeral, whole] at present
    · simp only [numeral, whole, if_false, Option.some.injEq] at present
      subst present
      refine ⟨fun empty => whole ?_, fun c member =>
        isDigit_of_mem_paddedDigits (List.mem_of_mem_drop member)⟩
      rw [← @length_places x.units.natAbs x.scale, empty, List.length_nil]
  exponent := by simp [numeral]

/-- No zero stands in front of other digits. -/
theorem head_numeral (x : Decimal) :
    x.numeral.whole = ['0'] ∨ x.numeral.whole.head? ≠ some '0' := by
  by_cases zero : x.units.natAbs = 0
  · left
    have scale : x.scale = 0 := x.reduced.resolve_right (by omega)
    simp [numeral, scale, zero, paddedDigits_zero]
  · exact head_paddedDigits (Nat.pos_of_ne_zero zero)

theorem make_eq_self (x : Decimal) : make x.units x.scale = x := by
  obtain ⟨units, scale, reduced⟩ := x
  cases scale with
  | zero => rfl
  | succ scale =>
      have last : units % 10 ≠ 0 := reduced.resolve_left (Nat.succ_ne_zero _)
      rw [make, dif_neg last]

theorem length_fraction_numeral (x : Decimal) :
    (x.numeral.fraction.getD []).length = x.scale := by
  by_cases whole : x.scale = 0
  · simp [numeral, whole]
  · simp only [numeral, whole, if_false, Option.getD_some]
    exact length_places

theorem ofNumeral_eq_ok_iff {n : Numeral} {x : Decimal} :
    ofNumeral n = .ok x ↔ ofNumeral? n n.chars.length = some x := by
  rw [ofNumeral]
  cases ofNumeral? n n.chars.length <;> simp

/-- A decimal number is the value of its spelling. -/
theorem ofNumeral_numeral (x : Decimal) : ofNumeral x.numeral = .ok x := by
  have units : (if x.numeral.negative then -(x.units.natAbs : Int) else x.units.natAbs)
      = x.units := by
    simp only [numeral, decide_eq_true_eq]
    split <;> omega
  have power : x.numeral.power = 0 := rfl
  rw [ofNumeral_eq_ok_iff, ofNumeral?, if_pos (Numeral.fits_of_exponent_none rfl)]
  simp only [allDigits_numeral, value_paddedDigits, units, power, length_fraction_numeral]
  split
  next zero =>
    have scale : x.scale = 0 := x.reduced.resolve_right (by simp [zero])
    rw [← make_eq_self x, zero, scale]
    rfl
  next =>
    split
    next whole =>
      have scale : x.scale = 0 := by omega
      have same := make_eq_self x
      rw [scale] at same
      simp [ofInt, same]
    next =>
      have shift : (-(0 - (x.scale : Int))).toNat = x.scale := by omega
      rw [shift, make_eq_self]

/-- A spelled numeral is read as its value. -/
theorem parse_chars {n : Numeral} (formed : n.WellFormed) :
    parse (String.ofList n.chars) = ofNumeral n := by
  rw [parse, String.toList_ofList, Numeral.parse?_chars formed, String.length_ofList]
  rfl

end Decimal

end SignedFacts
