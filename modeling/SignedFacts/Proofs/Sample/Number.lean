import SignedFacts.Proofs.Json.Grammar
import SignedFacts.Proofs.Number.Value
import SignedFacts.Sample.Tree

/-!
# Spellings of one number

In some styles a number has an exponent, in the others zeros may stand behind its last
place.  Each of these spellings is that of a numeral with no zero in front of other digits.
The value of the numeral is `units / 10 ^ scale` (`value_fixedNumeral`,
`value_scaledNumeral`), and since its exponent is small, it is also read as this value
(`writes_decimalChars`).
-/

namespace SignedFacts

/-! ## Small exponents -/

namespace Numeral

variable {n : Numeral}

/-- An exponent that is not far away is counted as it is. -/
theorem power_of_near (formed : n.WellFormed) (low : -10 ^ 9 < n.exactPower)
    (high : n.exactPower < 10 ^ 9) : n.power = n.exactPower := by
  rcases power_cases formed with same | ⟨_, far⟩ | ⟨_, far⟩
  · exact same
  · omega
  · omega

/-- A numeral fits if its exponent takes the point not too far to the left. -/
theorem fits_of_power (low : -1000 ≤ n.power) (high : n.power ≤ 0) :
    n.fits n.chars.length = true := by
  have point := n.point_layout
  have digits := n.length_allDigits
  have fewer := n.length_significant_le
  have within := n.length_allDigits_le
  have stripped : n.layout.digits.length ≤ n.significant.length := length_strip_le _
  rw [fits, Bool.or_eq_true, decide_eq_true_eq, Layout.fixedLength, Decimal.growthLimit]
  right
  split
  · omega
  · split <;> omega

/-- A numeral with the digits of a number, and with zeros behind them. -/
theorem value_of_size {units : Int} {zeros : Nat} (sign : n.negative = decide (units < 0))
    (size : n.size = 10 ^ zeros * units.natAbs) :
    n.value = units * 10 ^ (n.exactPower + zeros - n.places) := by
  have digits : n.units = units * 10 ^ zeros := by
    rw [Numeral.units, sign, size]
    push_cast
    by_cases negative : units < 0
    · rw [decide_eq_true negative, if_pos rfl, abs_of_neg negative]
      ring
    · rw [decide_eq_false negative, if_neg Bool.false_ne_true, abs_of_nonneg (not_lt.1 negative)]
      ring
  have powers : n.exactPower + zeros - n.places = (zeros : Int) + (n.exactPower - n.places) := by
    ring
  rw [value, digits, powers, zpow_add₀ (by norm_num), zpow_natCast]
  push_cast
  ring

end Numeral

/-- A numeral with such an exponent is read as its value. -/
theorem Decimal.ofNumeral_of_value {n : Numeral} {x : Decimal} (formed : n.WellFormed)
    (low : -1000 ≤ n.exactPower) (high : n.exactPower ≤ 0) (same : n.value = x.value) :
    ofNumeral n = .ok x := by
  have power : n.power = n.exactPower := Numeral.power_of_near formed (by omega) (by omega)
  have fits : n.fits n.chars.length = true :=
    Numeral.fits_of_power (by omega) (by omega)
  refine ofNumeral_eq_ok_iff_fits.2 ⟨fits, eq_of_value_eq ?_⟩
  rw [value_ofFitting (.inr power), same]

namespace Sample

/-! ## Numerals with zeros at the end -/

/-- The numeral of `units / 10 ^ scale` with a point and some zeros at the end. -/
def fixedNumeral (units : Int) (scale zeros : Nat) : Numeral where
  negative := decide (units < 0)
  whole :=
    (Decimal.paddedDigits units.natAbs scale).take
      ((Decimal.paddedDigits units.natAbs scale).length - scale)
  fraction :=
    if scale + zeros = 0 then none
    else
      some ((Decimal.paddedDigits units.natAbs scale).drop
        ((Decimal.paddedDigits units.natAbs scale).length - scale) ++ List.replicate zeros '0')
  exponent := none

section Fixed

variable {units : Int} {scale zeros : Nat}

theorem length_fraction_fixedNumeral : (fixedNumeral units scale zeros).places = scale + zeros := by
  rw [Numeral.places, fixedNumeral]
  split
  next none => simp [none]
  next => rw [Option.getD_some, List.length_append, Decimal.length_places, List.length_replicate]

theorem wellFormed_fixedNumeral : (fixedNumeral units scale zeros).WellFormed where
  whole := Decimal.isDigits_whole
  fraction := by
    intro digits present
    have length := @length_fraction_fixedNumeral units scale zeros
    rw [Numeral.places, present, Option.getD_some] at length
    rw [fixedNumeral] at present
    split at present
    next => cases present
    next some =>
      refine ⟨fun empty => some ?_, fun c member => ?_⟩
      · rw [← length, empty, List.length_nil]
      · rw [← Option.some.inj present] at member
        obtain place | zero := List.mem_append.1 member
        · exact Decimal.isDigit_of_mem_paddedDigits (List.mem_of_mem_drop place)
        · rw [List.eq_of_mem_replicate zero]
          rfl
  exponent := nofun

theorem size_fixedNumeral : (fixedNumeral units scale zeros).size = 10 ^ zeros * units.natAbs := by
  have digits : (fixedNumeral units scale zeros).allDigits
      = Decimal.paddedDigits units.natAbs scale ++ List.replicate zeros '0' := by
    rw [Numeral.allDigits, fixedNumeral]
    split
    next none =>
      obtain ⟨rfl, rfl⟩ := Nat.add_eq_zero_iff.1 none
      simp
    next => rw [Option.getD_some, ← List.append_assoc, List.take_append_drop]
  rw [Numeral.size, digits, Nat.ofDigitChars_append, Decimal.value_paddedDigits,
    Nat.ofDigitChars_replicate_zero]

theorem value_fixedNumeral : (fixedNumeral units scale zeros).value = units / 10 ^ scale := by
  have power : (fixedNumeral units scale zeros).exactPower = 0 := rfl
  have shift : (0 : Int) + zeros - ((scale + zeros : Nat) : Int) = -scale := by
    push_cast
    ring
  rw [Numeral.value_of_size rfl size_fixedNumeral, power, length_fraction_fixedNumeral, shift,
    zpow_neg, zpow_natCast, div_eq_mul_inv]

/-- No zero stands in front of other digits. -/
theorem head_fixedNumeral :
    (fixedNumeral units scale zeros).whole = ['0']
      ∨ (fixedNumeral units scale zeros).whole.head? ≠ some '0' := by
  rcases Nat.eq_zero_or_pos units.natAbs with zero | positive
  · left
    rw [fixedNumeral, zero]
    cases scale with
    | zero => rfl
    | succ scale =>
        have digits : Decimal.paddedDigits 0 (scale + 1)
            = List.replicate (scale + 1) '0' ++ ['0'] := rfl
        have one : (List.replicate (scale + 1) '0' ++ ['0']).length - (scale + 1) = 1 := by
          simp
        rw [digits, one]
        rfl
  · exact Decimal.head_paddedDigits positive

end Fixed

/-! ## Numerals with an exponent -/

/-- The numeral of some units with an exponent. -/
def scaledNumeral (units : Int) (exponent : Exponent) : Numeral where
  negative := decide (units < 0)
  whole := Nat.toDigits 10 units.natAbs
  fraction := none
  exponent := some exponent

section Scaled

variable {units : Int} {exponent : Exponent}

theorem wellFormed_scaledNumeral (digits : Numeral.IsDigits exponent.digits) :
    (scaledNumeral units exponent).WellFormed where
  whole := Decimal.isDigits_toDigits _
  fraction := nofun
  exponent := by
    rintro _ ⟨⟩
    exact digits

theorem value_scaledNumeral :
    (scaledNumeral units exponent).value = units * 10 ^ exponent.exact := by
  have size : (scaledNumeral units exponent).size = 10 ^ 0 * units.natAbs := by
    rw [Numeral.size, Numeral.allDigits, scaledNumeral, Option.getD_none, List.append_nil,
      Nat.ofDigitChars_toDigits (by decide) (by decide), Nat.pow_zero, Nat.one_mul]
  have power : (scaledNumeral units exponent).exactPower = exponent.exact := rfl
  have places : (scaledNumeral units exponent).places = 0 := rfl
  rw [Numeral.value_of_size rfl size, power, places, Nat.cast_zero, add_zero, sub_zero]

theorem head_scaledNumeral :
    (scaledNumeral units exponent).whole = ['0']
      ∨ (scaledNumeral units exponent).whole.head? ≠ some '0' := by
  rcases Nat.eq_zero_or_pos units.natAbs with zero | positive
  · left
    rw [scaledNumeral, zero]
    rfl
  · exact .inr (Decimal.head_toDigits positive)

end Scaled

/-! ## Numbers in a style -/

/-- The numeral that spells an integer. -/
def integerNumeral (style : Style) (n : Int) : Numeral :=
  if style.exponents then scaledNumeral n ⟨.bare, ['0']⟩
  else fixedNumeral n 0 (if style.trailingZeros then 2 else 0)

/-- The numeral that spells `units / 10 ^ scale`. -/
def decimalNumeral (style : Style) (units : Int) (scale : Nat) : Numeral :=
  if style.exponents then scaledNumeral units ⟨.minus, Nat.toDigits 10 scale⟩
  else fixedNumeral units scale (if style.trailingZeros then 1 else 0)

/-- A text spells a number in such a way that the number is read. -/
structure Writes (text : List Char) (n : Numeral) (x : Decimal) : Prop where
  spelled : Json.SpellsNumber text n
  read : Decimal.ofNumeral n.explicit = .ok x

section Writes

variable {mark : Char} {units : Int} {scale zeros : Nat}

theorem charsWith_fixedNumeral :
    (fixedNumeral units scale zeros).charsWith mark
      = (if units < 0 then ['-'] else []) ++ Decimal.unsignedChars units.natAbs scale
        ++ if scale = 0 ∧ zeros ≠ 0 then '.' :: List.replicate zeros '0'
          else List.replicate zeros '0' := by
  by_cases none : scale = 0
  · by_cases whole : zeros = 0
    · simp [Numeral.charsWith, Numeral.signChars, fixedNumeral, none, whole, Numeral.fractionChars,
        Numeral.markedChars, Decimal.unsignedChars, Decimal.paddedDigits_zero]
    · simp [Numeral.charsWith, Numeral.signChars, fixedNumeral, none, whole, Numeral.fractionChars,
        Numeral.markedChars, Decimal.unsignedChars, Decimal.paddedDigits_zero]
  · simp [Numeral.charsWith, Numeral.signChars, fixedNumeral, none, Numeral.fractionChars,
      Numeral.markedChars, Decimal.unsignedChars]

theorem charsWith_scaledNumeral {exponent : Exponent} :
    (scaledNumeral units exponent).charsWith mark
      = intChars units ++ mark :: (exponent.sign.chars ++ exponent.digits) := by
  simp [Numeral.charsWith, Numeral.signChars, scaledNumeral, Numeral.fractionChars,
    Numeral.markedChars, intChars]

/-- A numeral of a value is a way to write it. -/
theorem writes_of_value {n : Numeral} {x : Decimal} (formed : n.WellFormed)
    (isMark : Numeral.isExponentMark mark = true)
    (head : n.whole = ['0'] ∨ n.whole.head? ≠ some '0')
    (low : -1000 ≤ n.exactPower) (high : n.exactPower ≤ 0) (same : n.value = x.value) :
    Writes (n.charsWith mark) n x := by
  refine ⟨⟨⟨formed, mark, isMark, rfl⟩, head⟩, ?_⟩
  rw [← n.exactPower_explicit] at low high
  exact Decimal.ofNumeral_of_value (Numeral.wellFormed_explicit formed) low high
    (n.value_explicit.trans same)

theorem writes_fixedNumeral :
    Writes ((fixedNumeral units scale zeros).charsWith 'e') (fixedNumeral units scale zeros)
      (.make units scale) := by
  have power : (fixedNumeral units scale zeros).exactPower = 0 := rfl
  refine writes_of_value wellFormed_fixedNumeral rfl head_fixedNumeral (by omega) (by omega) ?_
  rw [value_fixedNumeral, Decimal.value_make]

theorem writes_scaledNumeral {exponent : Exponent} (isMark : Numeral.isExponentMark mark = true)
    (digits : Numeral.IsDigits exponent.digits) (exact : exponent.exact = -scale)
    (small : scale ≤ 1000) :
    Writes (intChars units ++ mark :: (exponent.sign.chars ++ exponent.digits))
      (scaledNumeral units exponent) (.make units scale) := by
  have power : (scaledNumeral units exponent).exactPower = -scale := exact
  rw [← charsWith_scaledNumeral]
  refine writes_of_value (wellFormed_scaledNumeral digits) isMark head_scaledNumeral (by omega)
    (by omega) ?_
  rw [value_scaledNumeral, Decimal.value_make, exact, zpow_neg, zpow_natCast, div_eq_mul_inv]

/-- An integer is written in every style. -/
theorem writes_integerChars (style : Style) (n : Int) :
    Writes (integerChars style n) (integerNumeral style n) (.ofInt n) := by
  rw [integerChars, integerNumeral]
  split
  next =>
    have digits : Numeral.IsDigits ['0'] := ⟨List.cons_ne_nil _ _, by simp⟩
    exact @writes_scaledNumeral 'E' n 0 ⟨.bare, ['0']⟩ rfl digits rfl (Nat.zero_le _)
  next =>
    have written := @writes_fixedNumeral n 0 (if style.trailingZeros then 2 else 0)
    rw [charsWith_fixedNumeral] at written
    cases zeros : style.trailingZeros <;>
      simpa [zeros, intChars, Decimal.unsignedChars, Decimal.ofInt] using written

/-- A decimal number is written in every style. -/
theorem writes_decimalChars (style : Style) (units : Int) (small : scale ≤ 1000) :
    Writes (decimalChars style units scale) (decimalNumeral style units scale)
      (.make units scale) := by
  rw [decimalChars, decimalNumeral]
  split
  next =>
    have exact : Exponent.exact ⟨.minus, Nat.toDigits 10 scale⟩ = -scale := by
      rw [Exponent.exact, Nat.ofDigitChars_toDigits (by decide) (by decide)]
    exact @writes_scaledNumeral 'e' units scale ⟨.minus, Nat.toDigits 10 scale⟩ rfl
      (Decimal.isDigits_toDigits scale) exact small
  next =>
    have written := @writes_fixedNumeral units scale (if style.trailingZeros then 1 else 0)
    rw [charsWith_fixedNumeral] at written
    cases zeros : style.trailingZeros <;> simpa [zeros] using written

end Writes

end Sample

end SignedFacts
