import SignedFacts.Proofs.Number.Layout

/-!
# The canonical spelling of a value

The rules of the canonical spelling, said of a text and a value (`IsCanonical`): no
exponent, no zero in front that could go, a point only if the value is no integer, no zero
behind the last place that is needed, and a minus sign only if the value is below zero.
They leave one text for each value (`Decimal.eq_text_of_isCanonical`), which is the spelling
of the decimal number (`Decimal.isCanonical_text`).
-/

namespace SignedFacts

namespace Numeral

/-- A numeral is spelled by the rules of the canonical spelling. -/
structure Canonical (n : Numeral) : Prop where
  formed : n.WellFormed
  plain : n.exponent = none
  whole : n.whole = ['0'] ∨ n.whole.head? ≠ some '0'
  fraction : ∀ digits, n.fraction = some digits →
    (¬ ∃ k : ℤ, n.value = k) ∧ digits.getLast? ≠ some '0'
  sign : n.negative = true → n.value < 0

/-! ## Digits -/

/-- Digit texts of one length with one value are the same. -/
theorem eq_of_ofDigitChars_eq {first second : List Char} (digits : ∀ c ∈ first, c.isDigit = true)
    (otherDigits : ∀ c ∈ second, c.isDigit = true) (length : first.length = second.length)
    (same : Nat.ofDigitChars 10 first 0 = Nat.ofDigitChars 10 second 0) : first = second := by
  induction first using List.reverseRecOn generalizing second with
  | nil => exact (List.length_eq_zero_iff.1 length.symm).symm
  | append_singleton first c induction =>
      obtain ⟨others, d, rfl⟩ : ∃ others d, second = others ++ [d] := by
        refine (List.eq_nil_or_concat' second).resolve_left ?_
        rintro rfl
        simp at length
      have digit := digits c (by simp)
      have otherDigit := otherDigits d (by simp)
      have small := digit_lt digit
      have otherSmall := digit_lt otherDigit
      have zero : '0'.toNat = 48 := rfl
      rw [ofDigitChars_append_one, ofDigitChars_append_one, zero] at same
      have fewer : first.length = others.length := by simpa using length
      have front := induction (fun x member => digits x (List.mem_append_left _ member))
        (fun x member => otherDigits x (List.mem_append_left _ member)) fewer (by omega)
      have last : c = d := by
        rw [← digitChar_sub digit, ← digitChar_sub otherDigit, zero]
        congr 1
        omega
      rw [front, last]

end Numeral

namespace Decimal

/-! ## The spelling is canonical -/

section Spelling

variable (x : Decimal)

theorem value_numeral : x.numeral.value = x.value := by
  have read := (ofNumeral_eq_ok_iff_fits.1 (ofNumeral_numeral x)).2
  rw [← value_ofFitting (.inr rfl), read]

variable {x}

theorem value_neg_iff : x.value < 0 ↔ x.units < 0 := by
  have positive : (0 : ℚ) < 10 ^ x.scale := by positivity
  rw [value, div_lt_iff₀ positive, zero_mul]
  exact Int.cast_lt_zero

/-- A number is an integer exactly if it has no places behind the point. -/
theorem exists_value_eq_int_iff : (∃ k : ℤ, x.value = k) ↔ x.scale = 0 := by
  simp only [value_eq_int_iff, exists_and_left, exists_eq', and_true]

theorem canonical_numeral : x.numeral.Canonical where
  formed := wellFormed_numeral x
  plain := rfl
  whole := head_numeral x
  fraction := by
    intro digits present
    have places := x.length_fraction_numeral
    have all := x.allDigits_numeral
    rw [Numeral.allDigits, present, Option.getD_some] at all
    rw [present, Option.getD_some] at places
    have filled := ((wellFormed_numeral x).fraction digits present).1
    have some : x.scale ≠ 0 := by
      rw [← places]
      exact (List.length_pos_iff.2 filled).ne'
    refine ⟨fun integer => ?_, fun zero => ?_⟩
    · rw [value_numeral] at integer
      exact some (exists_value_eq_int_iff.1 integer)
    · -- A zero in the last place would make the units a multiple of ten.
      have isDigits : Numeral.IsDigits (paddedDigits x.units.natAbs x.scale) :=
        ⟨List.ne_nil_of_length_pos (Nat.zero_lt_of_lt length_paddedDigits),
          fun c => isDigit_of_mem_paddedDigits⟩
      have last : (paddedDigits x.units.natAbs x.scale).getLast? = Option.some '0' := by
        rw [← all, List.getLast?_append_of_ne_nil _ filled, zero]
      have units := (Numeral.ofDigitChars_mod_eq_zero_iff isDigits).2 last
      rw [value_paddedDigits] at units
      have needed := x.reduced.resolve_left some
      omega
  sign := by
    intro negative
    rw [value_numeral, value_neg_iff]
    exact of_decide_eq_true negative

end Spelling

/-! ## Nothing else is canonical -/

section Unique

variable {n : Numeral} {x : Decimal}

/-- Behind the point of a canonical numeral stand the places that its value needs. -/
theorem places_of_canonical (canonical : n.Canonical) (same : x.value = n.value) :
    x.scale = n.places ∧ x.units = n.units := by
  have power : n.exactPower = 0 := by rw [Numeral.exactPower, canonical.plain]; rfl
  have value : n.value = n.units / 10 ^ n.places := by
    rw [Numeral.value, power, zero_sub, zpow_neg, zpow_natCast, div_eq_mul_inv]
  have reduced : n.places = 0 ∨ n.units % 10 ≠ 0 := by
    cases present : n.fraction with
    | none => exact .inl (by rw [Numeral.places, present]; rfl)
    | some digits =>
        have isDigits := canonical.formed.fraction digits present
        have all : n.allDigits = n.whole ++ digits := by rw [Numeral.allDigits, present]; rfl
        have allIsDigits : Numeral.IsDigits n.allDigits :=
          ⟨all ▸ List.append_ne_nil_of_right_ne_nil _ isDigits.1,
            Numeral.isDigit_of_mem_allDigits canonical.formed⟩
        refine .inr fun zero => (canonical.fraction digits present).2 ?_
        have size : n.size % 10 = 0 := by
          rw [Numeral.units] at zero
          split at zero <;> omega
        have last := (Numeral.ofDigitChars_mod_eq_zero_iff allIsDigits).1 size
        rwa [all, List.getLast?_append_of_ne_nil _ isDigits.1] at last
  have equal : x = ⟨n.units, n.places, reduced⟩ := eq_of_value_eq (same.trans value)
  rw [equal]
  exact ⟨rfl, rfl⟩

/-- The digits of a canonical numeral are those of its units with zeros in front up to the
point. -/
theorem allDigits_of_canonical (canonical : n.Canonical) :
    n.allDigits = paddedDigits n.size n.places := by
  have digits := Numeral.isDigit_of_mem_allDigits canonical.formed
  have length := n.length_allDigits
  have filled := List.length_pos_iff.2 canonical.formed.whole.1
  rcases canonical.whole with zero | first
  · -- A single zero in front is the only one, so both texts have one digit more than places.
    refine Numeral.eq_of_ofDigitChars_eq digits (fun c => isDigit_of_mem_paddedDigits) ?_
      value_paddedDigits.symm
    have small : n.size < 10 ^ (n.places + 1) := by
      have below := Numeral.ofDigitChars_lt digits
      rwa [length, zero, List.length_singleton, Nat.add_comm] at below
    have short := (Nat.length_toDigits_le_iff (by decide) (Nat.succ_pos _)).2 small
    rw [length, zero, List.length_singleton, paddedDigits, List.length_append,
      List.length_replicate]
    omega
  · have front : n.allDigits.head? ≠ some '0' := by
      rw [Numeral.allDigits, List.head?_append_of_ne_nil _ canonical.formed.whole.1]
      exact first
    have isDigits : Numeral.IsDigits n.allDigits :=
      ⟨List.ne_nil_of_length_pos (by omega), digits⟩
    have same : Nat.toDigits 10 n.size = n.allDigits := Numeral.toDigits_ofDigitChars isDigits front
    have none : n.places + 1 - n.allDigits.length = 0 := by omega
    rw [paddedDigits, same, none, List.replicate_zero, List.nil_append]

/-- A numeral is put together again from its digits and the number of its places. -/
theorem split_allDigits (formed : n.WellFormed) :
    n.whole = n.allDigits.take (n.allDigits.length - n.places)
      ∧ n.fraction = if n.places = 0 then none
        else some (n.allDigits.drop (n.allDigits.length - n.places)) := by
  have front : n.allDigits.length - n.places = n.whole.length := by
    rw [n.length_allDigits, Nat.add_sub_cancel]
  rw [front, Numeral.allDigits, List.take_left, List.drop_left]
  refine ⟨rfl, ?_⟩
  cases present : n.fraction with
  | none => rw [Numeral.places, present]; rfl
  | some digits =>
      have filled := List.length_pos_iff.2 (formed.fraction digits present).1
      rw [Numeral.places, present, Option.getD_some, if_neg filled.ne']

/-- A canonical numeral is the spelling of the decimal number of its value. -/
theorem eq_numeral_of_canonical (canonical : n.Canonical) (same : x.value = n.value) :
    n = x.numeral := by
  obtain ⟨places, units⟩ := places_of_canonical canonical same
  obtain ⟨whole, fraction⟩ := split_allDigits canonical.formed
  have size : n.size = x.units.natAbs := by
    rw [units, Numeral.units]
    split <;> omega
  have negative : n.negative = decide (x.units < 0) := by
    cases sign : n.negative with
    | true => exact (decide_eq_true (value_neg_iff.1 (same ▸ canonical.sign sign))).symm
    | false =>
        refine (decide_eq_false ?_).symm
        rw [units, Numeral.units, sign, if_neg Bool.false_ne_true]
        omega
  rw [allDigits_of_canonical canonical, size, ← places] at whole fraction
  have plain := canonical.plain
  obtain ⟨_, _, _, _⟩ := n
  simp only at negative whole fraction plain
  rw [negative, whole, fraction, plain, numeral]

end Unique

/-! ## The spelling of a value -/

/-- A text is the canonical spelling of a value. -/
def IsCanonical (text : String) (value : ℚ) : Prop :=
  ∃ n : Numeral, n.Canonical ∧ n.value = value ∧ text = String.ofList n.chars

theorem text_eq_numeral (x : Decimal) : x.text = String.ofList x.numeral.chars := by
  rw [text, chars_numeral]

theorem isCanonical_text (x : Decimal) : IsCanonical x.text x.value :=
  ⟨x.numeral, canonical_numeral, value_numeral x, text_eq_numeral x⟩

/-- A value has one canonical spelling. -/
theorem eq_text_of_isCanonical {text : String} {x : Decimal} (spelled : IsCanonical text x.value) :
    text = x.text := by
  obtain ⟨n, canonical, same, rfl⟩ := spelled
  rw [eq_numeral_of_canonical canonical same.symm, text_eq_numeral]

/-- A decimal number is what its spelling is read as. -/
theorem parse_text (x : Decimal) : parse x.text = .ok x := by
  rw [text_eq_numeral, parse_chars (wellFormed_numeral x), ofNumeral_numeral]

theorem text_injective : Function.Injective text := by
  intro x y same
  have read := parse_text x
  rw [same, parse_text] at read
  exact (Except.ok.inj read).symm

theorem chars_ofInt (k : Int) :
    (ofInt k).chars = (if k < 0 then ['-'] else []) ++ Nat.toDigits 10 k.natAbs := rfl

/-- An integer is spelled as integers are. -/
theorem text_ofInt (k : Int) : (ofInt k).text = toString k := by
  rw [text, chars_ofInt, Int.toString_eq_repr]
  cases k with
  | ofNat number =>
      rw [Int.repr, Nat.repr_eq_ofList_toDigits, if_neg (by simp)]
      rfl
  | negSucc number =>
      rw [Int.repr, Nat.repr_eq_ofList_toDigits, if_pos (Int.negSucc_lt_zero number),
        String.ofList_append]
      rfl

end Decimal

end SignedFacts
