import SignedFacts.Number.WordLayout
import SignedFacts.Proofs.Number.Growth

/-!
# Layouts in machine words are exact

For a text of fewer than 2⁶¹ octets the words of a layout are the integers that they stand
for (`WordLayout.Exact`).  An exponent counts as half of the largest word at most, and all
lengths together as less than a quarter of it, so no sum or difference on the way leaves its
range.  This holds whether or not the text grows too much.

Only the limit on growth bounds the place of the point by the length of the text, and with it
what is asked of the machine (`WordLayout.InRange`): numbers of zeros that are not negative,
a place inside the digits to split them at, and room for not much more than twice the text.
So nothing stops the machine, and what it finds is the spelling of the number that
`Decimal.parse` reads (`WordLayout.respell_exact`).
-/

namespace SignedFacts

/-! ## Words -/

namespace Machine

variable {a b : Int64}

theorem toInt_add_of_range (low : -2 ^ 63 ≤ a.toInt + b.toInt) (high : a.toInt + b.toInt < 2 ^ 63) :
    (a + b).toInt = a.toInt + b.toInt := by
  rw [Int64.toInt_add]
  exact Int.bmod_eq_of_le (by omega) (by omega)

theorem toInt_sub_of_range (low : -2 ^ 63 ≤ a.toInt - b.toInt) (high : a.toInt - b.toInt < 2 ^ 63) :
    (a - b).toInt = a.toInt - b.toInt := by
  rw [Int64.toInt_sub]
  exact Int.bmod_eq_of_le (by omega) (by omega)

theorem toInt_neg_of_range (high : -a.toInt < 2 ^ 63) : (-a).toInt = -a.toInt := by
  have low := a.toInt_lt
  rw [Int64.toInt_neg]
  exact Int.bmod_eq_of_le (by omega) (by omega)

/-- A word that is not negative is taken as the number that it is. -/
theorem toNat_toUInt64_of_nonneg (nonneg : 0 ≤ a.toInt) : a.toUInt64.toNat = a.toInt.toNat :=
  Int64.toNat_toUInt64_of_le (Int64.le_iff_toInt_le.2 (by rwa [Int64.toInt_zero]))

/-- The size of a word without its sign.  It fits for the smallest word, too. -/
theorem toNat_abs (a : Int64) : a.abs.toUInt64.toNat = a.toInt.natAbs := by
  have size := a.toBitVec.isLt
  change a.toBitVec.abs.toNat = a.toBitVec.toInt.natAbs
  rw [BitVec.toNat_abs, BitVec.toInt_eq_msb_cond]
  split <;> omega

end Machine

/-! ## The exponent -/

namespace Exponent

variable {e : Exponent}

/-- Up to nine digits spell a number that is far from the largest word. -/
theorem ofDigitChars_lt_of_short {text : List Char} (digits : ∀ c ∈ text, c.isDigit = true)
    (short : text.length ≤ 9) : Nat.ofDigitChars 10 text 0 < 10 ^ 9 :=
  Nat.lt_of_lt_of_le (Numeral.ofDigitChars_lt digits)
    (Nat.pow_le_pow_right (by decide) short)

theorem isDigit_of_mem_significant (isDigits : Numeral.IsDigits e.digits) :
    ∀ c ∈ e.digits.dropWhile (· = '0'), c.isDigit = true :=
  fun c member => isDigits.2 c ((List.dropWhile_sublist _).mem member)

theorem magnitude_le (isDigits : Numeral.IsDigits e.digits) :
    e.magnitude ≤ Decimal.farExponent := by
  have far : Decimal.farExponent = 4611686018427387903 := by decide
  simp only [magnitude]
  split
  next => exact Nat.le_refl _
  next short =>
    have digits := isDigit_of_mem_significant isDigits
    have small := ofDigitChars_lt_of_short digits (Nat.not_lt.1 short)
    omega

/-- The digits of an exponent always give a word. -/
theorem exists_word? (isDigits : Numeral.IsDigits e.digits) :
    ∃ size, e.word? = some size ∧ size.toInt = e.magnitude := by
  have digits := isDigit_of_mem_significant isDigits
  simp only [word?, magnitude]
  split
  next => exact ⟨_, rfl, by decide⟩
  next short =>
    cases shape : e.digits.dropWhile (· = '0') with
    | nil => exact ⟨0, rfl, rfl⟩
    | cons c rest =>
        rw [shape] at digits short
        have small := ofDigitChars_lt_of_short digits (Nat.not_lt.1 short)
        have range : Nat.ofDigitChars 10 (c :: rest) 0 < Nat.pow 2 63 :=
          Nat.lt_trans small (by decide)
        have read := (Machine.digits?_eq_some_iff (by decide)).2
          ⟨⟨List.cons_ne_nil _ _, digits⟩, rfl, range⟩
        refine ⟨Int64.ofInt (Nat.ofDigitChars 10 (c :: rest) 0), ?_,
          Int64.toInt_ofInt_of_le (by omega) (by omega)⟩
        rw [Machine.signed?_of_digit rfl (digits c (.head _)), read]
        rfl

end Exponent

namespace Numeral

variable {n : Numeral}

theorem natAbs_power_le (formed : n.WellFormed) : n.power.natAbs ≤ Decimal.farExponent := by
  cases present : n.exponent with
  | none => simp [power, present]
  | some e =>
      have small := Exponent.magnitude_le (formed.exponent e present)
      simp only [power, present, Option.map_some, Option.getD_some, Exponent.value]
      cases e.sign <;> simp only <;> omega

end Numeral

namespace WordLayout

variable {n : Numeral} {w : WordLayout} {octets : Nat}

/-! ## Exact words -/

/-- The words of a layout are the integers that they stand for. -/
structure Exact (w : WordLayout) (n : Numeral) (octets : Nat) : Prop where
  digits : w.digits = n.layout.digits
  leading : w.leading + n.significant.length = n.allDigits.length
  whole : (wholeOf n).toInt = n.whole.length
  moved : w.moved.toInt = n.whole.length + n.power
  point : w.point.toInt = n.layout.point
  length : w.length.toInt = n.layout.digits.length
  zerosBefore : w.zerosBefore.toInt = -n.layout.point
  zerosBehind : w.zerosBehind.toInt = n.layout.point - n.layout.digits.length
  opening : w.opening.toInt = 2 - n.layout.point
  fixedLength : w.fixedLength.toInt = n.layout.fixedLength
  growth : (w.growth octets).toInt = n.layout.fixedLength - octets

theorem toInt_wholeOf (short : n.whole.length < 2 ^ 63) : (wholeOf n).toInt = n.whole.length :=
  Int64.toInt_ofNat_of_lt short

/-- The exponent moves the point by what it counts as. -/
theorem exists_movedOf? (formed : n.WellFormed) (short : n.whole.length < 2 ^ 61) :
    ∃ moved, movedOf? n = some moved ∧ moved.toInt = n.whole.length + n.power := by
  have whole := @toInt_wholeOf n (by omega)
  have bound := Numeral.natAbs_power_le formed
  have far : Decimal.farExponent = 4611686018427387903 := by decide
  cases present : n.exponent with
  | none =>
      refine ⟨wholeOf n, by rw [movedOf?, present], ?_⟩
      simp [whole, Numeral.power, present]
  | some e =>
      obtain ⟨size, read, exact⟩ := Exponent.exists_word? (formed.exponent e present)
      have power : n.power = if e.sign = .minus then -(e.magnitude : Int) else e.magnitude := by
        simp only [Numeral.power, present, Option.map_some, Option.getD_some, Exponent.value]
        cases e.sign <;> rfl
      rw [power] at bound ⊢
      simp only [movedOf?, present, read, Option.map_some, Option.some.injEq, exists_eq_left']
      split
      next minus =>
        rw [if_pos minus] at bound
        rw [Machine.toInt_sub_of_range (by omega) (by omega)]
        omega
      next plus =>
        rw [if_neg plus] at bound
        rw [Machine.toInt_add_of_range (by omega) (by omega)]
        omega

/-- Behind the zeros in front are the significant digits. -/
theorem drop_leading (text : List Char) :
    text.drop (text.takeWhile (· = '0')).length = text.dropWhile (· = '0') :=
  calc
    text.drop (text.takeWhile (· = '0')).length
      = (text.takeWhile (· = '0') ++ text.dropWhile (· = '0')).drop
          (text.takeWhile (· = '0')).length := by rw [List.takeWhile_append_dropWhile]
    _ = text.dropWhile (· = '0') := List.drop_left

section Numerals

variable (formed : n.WellFormed) (short : n.chars.length < 2 ^ 61)
include formed short

/-- All words are exact if the digits are found and the point is moved exactly. -/
theorem exact_of_moved (digits : w.digits = n.layout.digits)
    (leading : w.leading + n.significant.length = n.allDigits.length)
    (moved : w.moved.toInt = n.whole.length + n.power) : w.Exact n n.chars.length := by
  have all := n.length_allDigits
  have within := n.length_allDigits_le
  have stripped : n.layout.digits.length ≤ n.significant.length := Numeral.length_strip_le _
  have power := Numeral.natAbs_power_le formed
  -- The exponent takes half of the range of a word, and the lengths less than a quarter.
  have far : Decimal.farExponent = 4611686018427387903 := by decide
  have place := n.point_layout
  have reach := n.layout.point_le_fixedLength
  have two : (2 : Int64).toInt = 2 := rfl
  have leadingWord : (Int64.ofNat w.leading).toInt = w.leading :=
    Int64.toInt_ofNat_of_lt (by omega)
  have octetsWord : (Int64.ofNat n.chars.length).toInt = n.chars.length :=
    Int64.toInt_ofNat_of_lt (by omega)
  have length : w.length.toInt = n.layout.digits.length := by
    rw [WordLayout.length, digits]
    exact Int64.toInt_ofNat_of_lt (by omega)
  have point : w.point.toInt = n.layout.point := by
    rw [WordLayout.point, Machine.toInt_sub_of_range (by omega) (by omega)]
    omega
  have opening : w.opening.toInt = 2 - n.layout.point := by
    rw [WordLayout.opening, Machine.toInt_sub_of_range (by omega) (by omega), two, point]
  have fixedLength : w.fixedLength.toInt = n.layout.fixedLength := by
    simp only [WordLayout.fixedLength, Layout.fixedLength, Int64.le_iff_toInt_le, point, length,
      Int64.toInt_zero]
    split
    next => rw [Machine.toInt_add_of_range (by omega) (by omega), opening, length]
    next =>
      split
      next => exact point
      next =>
        have one := Int64.toInt_one
        rw [Machine.toInt_add_of_range (by omega) (by omega), length, one]
  have fits := w.fixedLength.toInt_lt
  exact
    { digits, leading, moved, point, length, opening, fixedLength
      whole := toInt_wholeOf (by omega)
      zerosBefore := by
        rw [WordLayout.zerosBefore, Machine.toInt_neg_of_range (by omega), point]
      zerosBehind := by
        rw [WordLayout.zerosBehind, Machine.toInt_sub_of_range (by omega) (by omega), point, length]
      growth := by
        rw [WordLayout.growth, Machine.toInt_sub_of_range (by omega) (by omega), fixedLength,
          octetsWord] }

/-- Every numeral has a layout in words, and the words are exact. -/
theorem exists_exact : ∃ w, ofNumeral? n = some w ∧ w.Exact n n.chars.length := by
  have within := n.length_allDigits_le
  have all := n.length_allDigits
  obtain ⟨moved, read, exact⟩ := exists_movedOf? formed (by omega)
  have split := List.takeWhile_append_dropWhile (p := (· = '0')) (l := n.allDigits)
  refine ⟨_, by rw [ofNumeral?, read]; rfl, exact_of_moved formed short ?_ ?_ exact⟩
  · simp only [drop_leading]
    rfl
  · have lengths := congrArg List.length split
    rwa [List.length_append] at lengths

end Numerals

/-! ## What is asked of the machine -/

/-- What the spelling of a layout asks of the machine can be done.  The room that is made is
enough for the spelling and its sign, and in proportion to the text. -/
structure InRange (w : WordLayout) (octets : Nat) : Prop where
  zerosBefore : w.point ≤ 0 → 0 ≤ w.zerosBefore
  zerosBehind : w.length ≤ w.point → 0 ≤ w.zerosBehind
  split : 0 < w.point → w.point < w.length → w.point.toUInt64.toNat < w.digits.length
  room : w.room.toNat = w.digits.length + w.point.toInt.natAbs + 3
  enough : w.fixedLength.toInt < w.room.toNat
  proportion : w.room.toNat ≤ 2 * octets + 1027

theorem toNat_room (few : w.digits.length < 2 ^ 61) (near : w.point.toInt.natAbs < 2 ^ 63) :
    w.room.toNat = w.digits.length + w.point.toInt.natAbs + 3 := by
  have digits : (UInt64.ofNat w.digits.length).toNat = w.digits.length :=
    UInt64.toNat_ofNat_of_lt' (Nat.lt_trans few (by decide))
  have three : (3 : UInt64).toNat = 3 := rfl
  rw [room, UInt64.toNat_add, UInt64.toNat_add, Machine.toNat_abs, digits, three]
  omega

theorem toInt_limit : limit.toInt = Decimal.growthLimit := by decide

namespace Exact

/-- The growth in words is within the limit exactly if the growth of the numeral is. -/
theorem growth_le_iff (exact : w.Exact n octets) :
    w.growth octets ≤ limit ↔ n.layout.fixedLength - octets ≤ Decimal.growthLimit := by
  rw [Int64.le_iff_toInt_le, exact.growth, toInt_limit]

theorem inRange (exact : w.Exact n octets) (digits : w.digits.length ≤ octets)
    (short : octets < 2 ^ 61) (fits : w.growth octets ≤ limit) : w.InRange octets := by
  have bound : Decimal.growthLimit = 1024 := rfl
  have few := exact.growth_le_iff.1 fits
  have reach := n.layout.point_le_fixedLength
  have point := exact.point
  have count : n.layout.digits.length = w.digits.length := by rw [exact.digits]
  have room := @toNat_room w (by omega) (by omega)
  refine ⟨fun before => ?_, fun behind => ?_, fun after before => ?_, room, ?_, ?_⟩
  · rw [Int64.le_iff_toInt_le, Int64.toInt_zero] at before ⊢
    rw [exact.zerosBefore]
    omega
  · rw [Int64.le_iff_toInt_le, exact.length] at behind
    rw [Int64.le_iff_toInt_le, Int64.toInt_zero, exact.zerosBehind]
    omega
  · rw [Int64.lt_iff_toInt_lt, Int64.toInt_zero] at after
    rw [Int64.lt_iff_toInt_lt, exact.length] at before
    rw [Machine.toNat_toUInt64_of_nonneg (by omega)]
    omega
  · rw [exact.fixedLength, room, point, Layout.fixedLength]
    split
    · omega
    · split <;> omega
  · -- Zeros on one side of the digits are as many as the point is away from there.
    rw [room, point]
    rw [Layout.fixedLength] at few
    split at few
    · omega
    · split at few <;> omega

/-- What the machine finds is laid out as the numeral is. -/
theorem chars_eq (exact : w.Exact n octets) (inRange : w.InRange octets)
    (short : octets < 2 ^ 61) : w.chars = .ok n.layout.chars := by
  have proportion := inRange.proportion
  have room : ¬ Nat.pow 2 63 ≤ w.room.toNat := by
    have size : Nat.pow 2 63 = 9223372036854775808 := rfl
    omega
  rw [WordLayout.chars, if_neg room, Layout.chars]
  simp only [Int64.le_iff_toInt_le, Int64.toInt_zero, exact.point, exact.length, ← exact.digits]
  split
  next before =>
    have zeros := exact.zerosBefore
    rw [Machine.toNat_toUInt64_of_nonneg (by omega), zeros]
  next after =>
    split
    next behind =>
      have zeros := exact.zerosBehind
      rw [exact.digits] at behind ⊢
      rw [Machine.toNat_toUInt64_of_nonneg (by omega), zeros]
    next inside =>
      have point := exact.point
      have index : w.point.toUInt64.toNat = n.layout.point.toNat := by
        rw [Machine.toNat_toUInt64_of_nonneg (by omega), point]
      rw [if_neg (by omega), index]

end Exact

/-! ## Texts -/

section Texts

variable {text : String}

theorem length_encode_of_spells (spelled : Numeral.Spells text.toList n) :
    (Utf8.encode text).length = n.chars.length := by
  have small := fun c member => (Numeral.visible_of_spells spelled c member).2
  rw [Utf8.encode, Utf8.octets_of_small small, List.length_map, Numeral.length_of_spells spelled]

/-- What is read of a spelled numeral, said of its layout. -/
theorem parse_text_of_spells (spelled : Numeral.Spells text.toList n) :
    (Decimal.parse text).map Decimal.text
      = if n.layout.digits = [] then .ok "0"
        else if n.layout.fixedLength - (Utf8.encode text).length ≤ Decimal.growthLimit then
          .ok (String.ofList (n.signChars ++ n.layout.chars))
        else .error (.tooLong text) := by
  have length : text.length = n.chars.length := by
    rw [← String.length_toList, Numeral.length_of_spells spelled]
  have fits : n.fits n.chars.length = true ↔ n.layout.digits = []
      ∨ n.layout.fixedLength - (Utf8.encode text).length ≤ Decimal.growthLimit := by
    rw [Numeral.fits, length_encode_of_spells spelled, Bool.or_eq_true, List.isEmpty_iff,
      decide_eq_true_eq]
  by_cases short : n.fits n.chars.length = true
  · have read := Decimal.ofNumeral_eq_ok_iff_fits.2 ⟨short, rfl⟩
    rw [(Decimal.parse_of_spells spelled).2 read, Except.map]
    split
    next empty =>
      have zero := (Numeral.digits_layout_eq_nil_iff spelled.1).1 empty
      rw [Decimal.text, Decimal.chars_of_ofNumeral_zero zero read]
    next filled =>
      have nonzero := mt (Numeral.digits_layout_eq_nil_iff spelled.1).2 filled
      rw [if_pos ((fits.1 short).resolve_left filled), Decimal.text,
        Decimal.chars_of_ofNumeral spelled.1 nonzero read]
  · obtain ⟨filled, long⟩ := not_or.1 (mt fits.2 short)
    have none : Decimal.ofNumeral? n text.length = none := by
      rw [Decimal.ofNumeral?, length, if_neg short]
    rw [if_neg filled, if_neg long, Decimal.parse, Numeral.parse?_of_spells spelled]
    simp only [none, Except.map]

theorem exists_layout (short : (Utf8.encode text).length < 2 ^ 61)
    (spelled : Numeral.Spells text.toList n) :
    ∃ w, ofNumeral? n = some w ∧ w.Exact n (Utf8.encode text).length
      ∧ (w.growth (Utf8.encode text).length ≤ limit → w.InRange (Utf8.encode text).length) := by
  rw [length_encode_of_spells spelled] at short ⊢
  obtain ⟨w, found, exact⟩ := exists_exact spelled.1 short
  have digits : w.digits.length ≤ n.chars.length := by
    rw [exact.digits]
    exact n.length_digits_layout_le.trans n.length_allDigits_le
  exact ⟨w, found, exact, exact.inRange digits short⟩

theorem respell_eq (short : (Utf8.encode text).length < 2 ^ 61) :
    respell text = .ok ((Decimal.parse text).map Decimal.text) := by
  cases read : Numeral.parse? text.toList with
  | none => simp only [respell, Decimal.parse, read, Except.map]
  | some n =>
      have spelled := Numeral.spells_of_parse? read
      obtain ⟨w, found, exact, inRange⟩ := exists_layout short spelled
      simp only [respell, read, found, parse_text_of_spells spelled, exact.digits,
        List.isEmpty_iff]
      split
      next => rfl
      next =>
        by_cases fits : w.growth (Utf8.encode text).length ≤ limit
        · rw [if_neg (Int64.not_lt.2 fits), if_pos (exact.growth_le_iff.1 fits),
            exact.chars_eq (inRange fits) short]
          rfl
        · rw [if_pos (Int64.not_le.1 fits), if_neg (mt exact.growth_le_iff.2 fits)]

/-- Layouts in words are exact, and nothing stops the machine.  For a text of fewer than 2⁶¹
octets every word is the integer that it stands for.  If the text does not grow by more than
the limit, the numbers of zeros are not negative, the digits are split inside, and room is
made for twice the octets and 1027 characters at most.  What is found is the spelling of the
number that is read, or the reason why none is. -/
theorem respell_exact (text : String) (short : (Utf8.encode text).length < 2 ^ 61) :
    respell text = .ok ((Decimal.parse text).map Decimal.text)
    ∧ ∀ n, Numeral.Spells text.toList n → ∃ w, ofNumeral? n = some w
      ∧ w.Exact n (Utf8.encode text).length
      ∧ (w.growth (Utf8.encode text).length ≤ limit → w.InRange (Utf8.encode text).length) :=
  ⟨respell_eq short, fun _ => exists_layout short⟩

/-- A number with an exponent that is too far away, and one whose digits are split. -/
theorem respell_exact_farAndSplit :
    ((Utf8.encode "0.01e-9999999999").length < 2 ^ 61
      ∧ respell "0.01e-9999999999" = .ok (.error (.tooLong "0.01e-9999999999"))
      ∧ ∃ n w, Numeral.Spells "0.01e-9999999999".toList n ∧ ofNumeral? n = some w
        ∧ w.point.toInt = -4611686018427387904 ∧ (w.growth 16).toInt = 4611686018427387891)
    ∧ (Utf8.encode "-0.01250E+3").length < 2 ^ 61
      ∧ respell "-0.01250E+3" = .ok (.ok "-12.5")
      ∧ ∃ n w, Numeral.Spells "-0.01250E+3".toList n ∧ ofNumeral? n = some w
        ∧ w.point.toInt = 2 ∧ w.InRange 11 ∧ w.room.toNat = 8 := by
  have far : Numeral.Spells "0.01e-9999999999".toList
      ⟨false, ['0'], some ['0', '1'], some ⟨.minus, List.replicate 10 '9'⟩⟩ :=
    Numeral.spells_of_parse? (by decide)
  have split : Numeral.Spells "-0.01250E+3".toList
      ⟨true, ['0'], some ['0', '1', '2', '5', '0'], some ⟨.plus, ['3']⟩⟩ :=
    Numeral.spells_of_parse? (by decide)
  obtain ⟨farSame, farLayouts⟩ := respell_exact "0.01e-9999999999" (by decide)
  obtain ⟨splitSame, splitLayouts⟩ := respell_exact "-0.01250E+3" (by decide)
  obtain ⟨v, farFound, farExact, _⟩ := farLayouts _ far
  obtain ⟨w, splitFound, splitExact, inRange⟩ := splitLayouts _ split
  have room := inRange (splitExact.growth_le_iff.2 (by decide))
  refine ⟨⟨by decide, ?_, _, v, far, farFound, ?_, ?_⟩,
    by decide, ?_, _, w, split, splitFound, ?_, room, ?_⟩
  · rw [farSame]
    decide
  · rw [farExact.point]
    decide
  · exact farExact.growth.trans (by decide)
  · rw [splitSame]
    decide
  · rw [splitExact.point]
    decide
  · rw [room.room, splitExact.point, splitExact.digits]
    decide

end Texts

end WordLayout

end SignedFacts
