import SignedFacts.Octets.Utf8
import SignedFacts.Proofs.Number.Canonical
import SignedFacts.Proofs.Octets.Utf8

/-!
# Which numbers are accepted

A text is read as the decimal number of its value, unless the spelling of that number would
be too much longer than the text (`Decimal.parse_eq_ok_iff`).  What counts is the length of
the spelling without its minus sign.  So a number below zero may grow by one character more
than `Decimal.growthLimit`, and `Decimal.parse_succeeds_iff` says so.
`Decimal.parse_normalises` says what the spellings of the numbers that are read are worth:
they are canonical, and equal exactly if the values are.
-/

namespace SignedFacts

/-- What is laid out is at least as long as the point is far away. -/
theorem Layout.point_le_fixedLength (layout : Layout) :
    layout.point ≤ layout.fixedLength ∧ -layout.point ≤ layout.fixedLength := by
  rw [fixedLength]
  split
  · omega
  · split <;> omega

namespace Numeral

variable {n : Numeral}

theorem value_neg_iff : n.value < 0 ↔ n.units < 0 := by
  have positive : (0 : ℚ) < 10 ^ (n.exactPower - n.places) := by positivity
  rw [value, mul_neg_iff]
  constructor
  · rintro (⟨_, below⟩ | ⟨below, _⟩)
    · exact absurd below (not_lt.2 positive.le)
    · exact_mod_cast below
  · intro below
    exact .inr ⟨by exact_mod_cast below, positive⟩

/-- The spelling of a number that is not zero is as long as the layout says. -/
theorem length_text_of_value_eq {x : Decimal} (formed : n.WellFormed) (nonzero : n.size ≠ 0)
    (same : x.value = n.value) :
    (x.text.length : Int) = (if x.units < 0 then 1 else 0) + n.exactLayout.fixedLength := by
  have sign : x.units < 0 ↔ n.negative = true := by
    rw [← Decimal.value_neg_iff, same, value_neg_iff, Numeral.units]
    cases n.negative
    · simp
    · simp
      omega
  rw [Decimal.text, String.length_ofList, chars_of_value_eq formed nonzero same,
    List.length_append, Int.natCast_add, Layout.length_chars, signChars]
  simp only [sign]
  split <;> rfl

/-- A numeral fits if the layout of its digits is short enough. -/
theorem fits_iff (formed : n.WellFormed) (short : n.chars.length ≤ safeLength) :
    n.fits n.chars.length = true
      ↔ n.size = 0 ∨ n.exactLayout.fixedLength ≤ n.chars.length + Decimal.growthLimit := by
  have limit : Decimal.growthLimit = 1024 := rfl
  have bound : safeLength = 268435456 := by decide
  have counted := n.layout.point_le_fixedLength
  have exact := n.exactLayout.point_le_fixedLength
  have place : n.exactLayout.point = n.significant.length + n.exactPower - n.places := rfl
  rw [fits, Bool.or_eq_true, List.isEmpty_iff, decide_eq_true_eq, digits_layout_eq_nil_iff formed]
  refine or_congr_right ?_
  -- A point that is out of reach makes both sides false.
  rcases point_cases formed short with ⟨same, _⟩ | far | far
  · rw [layout_eq_exactLayout same]
    omega
  · omega
  · omega

end Numeral

namespace Decimal
variable {n : Numeral} {x : Decimal}

theorem fits_iff_length (formed : n.WellFormed) (short : n.chars.length ≤ Numeral.safeLength)
    (same : x.value = n.value) :
    n.fits n.chars.length = true
      ↔ x.text.length ≤ n.chars.length + growthLimit + (if x.units < 0 then 1 else 0) := by
  rw [Numeral.fits_iff formed short]
  by_cases zero : n.size = 0
  · have none : x = ofInt 0 := by
      refine eq_of_value_eq (same.trans ?_)
      rw [Numeral.value, Numeral.units, zero, value_ofInt]
      simp
    have one : (ofInt 0).text.length = 1 := by decide
    rw [none, one]
    refine iff_of_true (.inl zero) ?_
    rw [growthLimit]
    omega
  · have length := Numeral.length_text_of_value_eq formed zero same
    rw [or_iff_right zero]
    split at length
    next below =>
      rw [if_pos below]
      omega
    next above =>
      rw [if_neg above]
      omega

/-- A numeral is read as a number exactly if this is its value and the spelling is short
enough. -/
theorem ofNumeral_eq_ok_iff_length (formed : n.WellFormed)
    (short : n.chars.length ≤ Numeral.safeLength) :
    ofNumeral n = .ok x
      ↔ x.value = n.value
        ∧ x.text.length ≤ n.chars.length + growthLimit + (if x.units < 0 then 1 else 0) := by
  constructor
  · intro read
    have same := value_of_ofNumeral formed short read
    exact ⟨same, (fits_iff_length formed short same).1 (ofNumeral_eq_ok_iff_fits.1 read).1⟩
  · rintro ⟨same, length⟩
    have fits := (fits_iff_length formed short same).2 length
    have read := value_ofFitting (Numeral.power_of_fits formed short fits)
    exact ofNumeral_eq_ok_iff_fits.2 ⟨fits, eq_of_value_eq (read.trans same.symm)⟩

/-! ## Texts -/

section Texts

variable {text : String}

theorem parse_of_spells (spelled : Numeral.Spells text.toList n) :
    parse text = .ok x ↔ ofNumeral n = .ok x := by
  simp only [parse, Numeral.parse?_of_spells spelled, ofNumeral_eq_ok_iff,
    ← Numeral.length_of_spells spelled, String.length_toList]
  cases ofNumeral? n text.length <;> simp

/-- What is read spells a numeral. -/
theorem spells_of_parse (read : parse text = .ok x) :
    ∃ n, Numeral.Spells text.toList n ∧ ofNumeral n = .ok x := by
  cases numeral : Numeral.parse? text.toList with
  | none => simp [parse, numeral] at read
  | some n =>
      have spelled := Numeral.spells_of_parse? numeral
      exact ⟨n, spelled, (parse_of_spells spelled).1 read⟩

/-- A spelled numeral is read as the number of its value, if the spelling of that is short
enough. -/
theorem parse_eq_ok_iff (short : (Utf8.encode text).length < 2 ^ 28)
    (spelled : Numeral.Spells text.toList n) :
    parse text = .ok x
      ↔ x.value = n.value
        ∧ x.text.length ≤ text.length + growthLimit + (if x.units < 0 then 1 else 0) := by
  have length := Numeral.length_of_spells spelled
  have octets := Utf8.length_le_length_octets text.toList
  have bound : Numeral.safeLength = 268435456 := by decide
  rw [Utf8.encode] at short
  rw [parse_of_spells spelled, ofNumeral_eq_ok_iff_length spelled.1 (by omega), ← length,
    String.length_toList]

/-- Zero is read whatever its exponent. -/
theorem parse_of_value_zero (spelled : Numeral.Spells text.toList n) (zero : n.value = 0) :
    parse text = .ok (ofInt 0) := by
  have units : n.units = 0 := by
    have positive : (10 : ℚ) ^ (n.exactPower - n.places) ≠ 0 := by positivity
    rw [Numeral.value, mul_eq_zero, or_iff_left positive] at zero
    exact_mod_cast zero
  have size : n.size = 0 := by
    rw [Numeral.units] at units
    split at units <;> omega
  have fits : n.fits n.chars.length = true := by
    rw [Numeral.fits, (Numeral.digits_layout_eq_nil_iff spelled.1).2 size]
    rfl
  rw [parse_of_spells spelled, ofNumeral_eq_ok_iff_fits, ofFitting, if_pos units]
  exact ⟨fits, rfl⟩

/-- Without an exponent a numeral is read whatever its length. -/
theorem exists_parse_of_plain (spelled : Numeral.Spells text.toList n) (plain : n.exponent = none) :
    ∃ x, parse text = .ok x := by
  simp only [parse_of_spells spelled, ofNumeral_eq_ok_iff_fits, Numeral.fits_of_exponent_none plain,
    true_and, exists_eq']

/-- The value of a numeral is that of a decimal number. -/
theorem exists_value_eq (n : Numeral) : ∃ x : Decimal, x.value = n.value :=
  ⟨_, n.value_exactLayout⟩

theorem length_text_ofInt_le {k : ℤ} {digits : Nat} (some : 0 < digits)
    (small : k.natAbs < 10 ^ digits) : (ofInt k).text.length ≤ digits + 1 := by
  have length := (Nat.length_toDigits_le_iff (by decide) some).2 small
  rw [text, String.length_ofList, chars_ofInt, List.length_append]
  split
  · rw [List.length_singleton]
    omega
  · rw [List.length_nil]
    omega

end Texts

/-! ## Numbers that are read -/

/-- Reading normalises.  A number that is read has the value of its text, and its spelling is
the canonical one of this value.  So two numbers are equal exactly if their values are, a
number is what its own spelling is read as, and any text of an integer of 64 bits is read as
this integer. -/
theorem parse_normalises :
    (∀ (text : String) (x : Decimal), (Utf8.encode text).length < 2 ^ 28 → parse text = .ok x →
      ∃ n, Numeral.Spells text.toList n ∧ x.value = n.value ∧ IsCanonical x.text n.value
        ∧ ∀ spelling, IsCanonical spelling n.value → spelling = x.text)
    ∧ (∀ (first second : String) (n m : Numeral) (x y : Decimal),
      (Utf8.encode first).length < 2 ^ 28 → (Utf8.encode second).length < 2 ^ 28 →
      Numeral.Spells first.toList n → Numeral.Spells second.toList m →
      parse first = .ok x → parse second = .ok y →
      (x = y ↔ n.value = m.value) ∧ (x.text = y.text ↔ n.value = m.value))
    ∧ (∀ x : Decimal, parse x.text = .ok x)
    ∧ ∀ k : ℤ, -2 ^ 63 ≤ k → k < 2 ^ 64 →
      (ofInt k).text = toString k
      ∧ ∀ (text : String) (n : Numeral), (Utf8.encode text).length < 2 ^ 28 →
        Numeral.Spells text.toList n → n.value = k → parse text = .ok (ofInt k) := by
  refine ⟨?_, ?_, parse_text, ?_⟩
  · intro text x short read
    obtain ⟨n, spelled, _⟩ := spells_of_parse read
    have same := ((parse_eq_ok_iff short spelled).1 read).1
    refine ⟨n, spelled, same, ?_⟩
    rw [← same]
    exact ⟨isCanonical_text x, fun _ => eq_text_of_isCanonical⟩
  · intro first second n m x y shortFirst shortSecond spelled spelledSecond read readSecond
    have same := ((parse_eq_ok_iff shortFirst spelled).1 read).1
    have sameSecond := ((parse_eq_ok_iff shortSecond spelledSecond).1 readSecond).1
    have equal : x = y ↔ n.value = m.value := by
      rw [← same, ← sameSecond]
      exact ⟨congrArg value, eq_of_value_eq⟩
    exact ⟨equal, text_injective.eq_iff.trans equal⟩
  · intro k low high
    refine ⟨text_ofInt k, fun text n short spelled same => ?_⟩
    refine (parse_eq_ok_iff short spelled).2 ⟨(value_ofInt k).trans same.symm, ?_⟩
    have length := @length_text_ofInt_le k 20 (by decide) (by omega)
    have limit : growthLimit = 1024 := rfl
    omega

/-- Two texts of one number below zero, and an integer that is spelled with an exponent. -/
theorem parse_normalises_alike :
    (∃ n m, Numeral.Spells "-1.250E+1".toList n ∧ Numeral.Spells "-0012.5".toList m
      ∧ n.value = m.value)
    ∧ IsCanonical "-12.5" (-25 / 2)
    ∧ parse "25600e-2" = .ok (ofInt 256) := by
  have read : parse "-1.250E+1" = .ok ⟨-125, 1, by decide⟩ := by decide
  have readSecond : parse "-0012.5" = .ok ⟨-125, 1, by decide⟩ := by decide
  obtain ⟨n, spelled, same, canonical, _⟩ := parse_normalises.1 _ _ (by decide) read
  obtain ⟨m, spelledSecond, _⟩ := parse_normalises.1 _ _ (by decide) readSecond
  have equal := parse_normalises.2.1 _ _ n m _ _ (by decide) (by decide) spelled spelledSecond read
    readSecond
  have value : n.value = -25 / 2 := by
    rw [← same]
    norm_num [Decimal.value]
  have text : (⟨-125, 1, by decide⟩ : Decimal).text = "-12.5" := by decide
  have shifted : Numeral.Spells "25600e-2".toList
      ⟨false, ['2', '5', '6', '0', '0'], none, some ⟨.minus, ['2']⟩⟩ :=
    Numeral.spells_of_parse? (by decide)
  refine ⟨⟨n, m, spelled, spelledSecond, equal.1.1 rfl⟩, value ▸ text ▸ canonical, ?_⟩
  refine (parse_normalises.2.2.2 256 (by norm_num) (by norm_num)).2 _ _ (by decide) shifted ?_
  have units : Numeral.units ⟨false, ['2', '5', '6', '0', '0'], none, some ⟨.minus, ['2']⟩⟩ = 25600 :=
    by decide
  have power : Numeral.exactPower ⟨false, ['2', '5', '6', '0', '0'], none, some ⟨.minus, ['2']⟩⟩
      = -2 := by decide
  rw [Numeral.value, units, power]
  norm_num [Numeral.places]

/-! ## The limit -/

/-- The limit on growth.  A text is read as a number exactly if it spells a numeral and the
canonical spelling of its value, a minus sign left out, is at most 1024 characters longer
than the text.  With the minus sign it may be 1025 longer, but not if the value is zero or
more.  Zero is read with any exponent, and a numeral without an exponent at any length. -/
theorem parse_succeeds_iff {text : String} (short : (Utf8.encode text).length < 2 ^ 28) :
    ((∃ x, parse text = .ok x) ↔
      ∃ n spelling, Numeral.Spells text.toList n ∧ IsCanonical spelling n.value
        ∧ spelling.length ≤ text.length + 1024 + (if n.value < 0 then 1 else 0))
    ∧ (∀ n, Numeral.Spells text.toList n → 0 ≤ n.value →
      ((∃ x, parse text = .ok x) ↔
        ∃ spelling, IsCanonical spelling n.value ∧ spelling.length ≤ text.length + 1024))
    ∧ (∀ x, parse text = .ok x →
      x.text.length ≤ text.length + 1024 + (if x.value < 0 then 1 else 0))
    ∧ (∀ n, Numeral.Spells text.toList n → n.value = 0 → parse text = .ok (ofInt 0))
    ∧ ∀ n, Numeral.Spells text.toList n → n.exponent = none → ∃ x, parse text = .ok x := by
  have limit : growthLimit = 1024 := rfl
  have growth (n : Numeral) (spelled : Numeral.Spells text.toList n) :
      (∃ x, parse text = .ok x)
        ↔ ∃ spelling, IsCanonical spelling n.value
          ∧ spelling.length ≤ text.length + 1024 + (if n.value < 0 then 1 else 0) := by
    simp only [parse_eq_ok_iff short spelled, limit, ← value_neg_iff]
    constructor
    · rintro ⟨x, same, length⟩
      rw [← same]
      exact ⟨x.text, isCanonical_text x, length⟩
    · rintro ⟨spelling, canonical, length⟩
      obtain ⟨x, same⟩ := exists_value_eq n
      rw [← same] at canonical length
      rw [eq_text_of_isCanonical canonical] at length
      exact ⟨x, same, length⟩
  refine ⟨⟨?_, ?_⟩, ?_, ?_, fun n => parse_of_value_zero, fun n => exists_parse_of_plain⟩
  · rintro ⟨x, read⟩
    obtain ⟨n, spelled, _⟩ := spells_of_parse read
    obtain ⟨spelling, found⟩ := (growth n spelled).1 ⟨x, read⟩
    exact ⟨n, spelling, spelled, found⟩
  · rintro ⟨n, spelling, spelled, found⟩
    exact (growth n spelled).2 ⟨spelling, found⟩
  · intro n spelled above
    rw [growth n spelled, if_neg (not_lt.2 above)]
  · intro x read
    obtain ⟨n, spelled, _⟩ := spells_of_parse read
    have length := ((parse_eq_ok_iff short spelled).1 read).2
    simpa only [limit, value_neg_iff] using length

/-! ## A number past the limit -/

/-- The numeral of `-1e1030`. -/
def minusPower : Numeral := ⟨true, ['1'], none, some ⟨.bare, ['1', '0', '3', '0']⟩⟩

theorem spells_minusPower : Numeral.Spells "-1e1030".toList minusPower :=
  Numeral.spells_of_parse? (by decide)

section MinusPower

variable {x : Decimal}

theorem neg_minusPower (same : x.value = minusPower.value) : x.units < 0 := by
  rw [← value_neg_iff, same, Numeral.value_neg_iff]
  decide

/-- A minus sign, a one and the zeros. -/
theorem length_minusPower (same : x.value = minusPower.value) : x.text.length = 1032 := by
  have length := Numeral.length_text_of_value_eq spells_minusPower.1 (by decide) same
  have fixed : minusPower.exactLayout.fixedLength = 1031 := by decide
  rw [fixed, if_pos (neg_minusPower same)] at length
  exact_mod_cast length

theorem parse_minusPower (same : x.value = minusPower.value) : parse "-1e1030" = .ok x := by
  refine (parse_eq_ok_iff (by decide) spells_minusPower).2 ⟨same, ?_⟩
  rw [length_minusPower same, if_pos (neg_minusPower same)]
  decide

end MinusPower

/-- The seven characters of a power of ten below zero grow by 1025. -/
theorem parse_succeeds_iff_minusPower :
    (Utf8.encode "-1e1030").length < 2 ^ 28
    ∧ ∃ n spelling, Numeral.Spells "-1e1030".toList n ∧ IsCanonical spelling n.value
      ∧ spelling.length ≤ "-1e1030".length + 1024 + (if n.value < 0 then 1 else 0) := by
  obtain ⟨x, same⟩ := exists_value_eq minusPower
  have short : (Utf8.encode "-1e1030").length < 2 ^ 28 := by decide
  exact ⟨short, (parse_succeeds_iff short).1.1 ⟨x, parse_minusPower same⟩⟩

/-- With the minus sign counted, 1024 characters more are not the limit: a number is read
whose canonical spelling is longer. -/
theorem parse_past_limit :
    ¬ ((∃ x, parse "-1e1030" = .ok x) ↔
      ∃ n spelling, Numeral.Spells "-1e1030".toList n ∧ IsCanonical spelling n.value
        ∧ spelling.length ≤ "-1e1030".length + 1024) := by
  intro limited
  obtain ⟨x, value⟩ := exists_value_eq minusPower
  obtain ⟨n, spelling, spelled, canonical, length⟩ := limited.1 ⟨x, parse_minusPower value⟩
  have same : x.value = n.value :=
    ((parse_eq_ok_iff (by decide) spelled).1 (parse_minusPower value)).1
  rw [← same] at canonical
  rw [eq_text_of_isCanonical canonical, length_minusPower value] at length
  revert length
  decide

end Decimal

end SignedFacts
