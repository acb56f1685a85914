import SignedFacts.Number.Numeral

/-!
# Spelled numerals

The texts of a numeral.  Digits are never missing where the grammar asks for
them, and the exponent has either mark, which a `Numeral` does not keep.  These
texts are read as the numeral (`Numeral.parse?_of_spells`), and no others
(`Numeral.spells_of_parse?`).
-/

namespace SignedFacts.Numeral

/-! ## Digits -/

/-- One digit at least and nothing else. -/
def IsDigits (text : List Char) : Prop := text ≠ [] ∧ ∀ c ∈ text, c.isDigit = true

/-- A numeral with digits wherever they are due. -/
structure WellFormed (n : Numeral) : Prop where
  whole : IsDigits n.whole
  fraction : ∀ digits, n.fraction = some digits → IsDigits digits
  exponent : ∀ e, n.exponent = some e → IsDigits e.digits

/-! ## Texts -/

/-- The minus sign of a numeral, if it has one. -/
def signChars (n : Numeral) : List Char := if n.negative then ['-'] else []

/-- The spelling of an exponent behind a mark. -/
def markedChars (mark : Char) : Option Exponent → List Char
  | none => []
  | some exponent => mark :: exponent.sign.chars ++ exponent.digits

/-- The spelling of a numeral with a mark for its exponent. -/
def charsWith (mark : Char) (n : Numeral) : List Char :=
  n.signChars ++ n.whole ++ fractionChars n.fraction ++ markedChars mark n.exponent

/-- A text spells a numeral. -/
def Spells (text : List Char) (n : Numeral) : Prop :=
  n.WellFormed ∧ ∃ mark, isExponentMark mark = true ∧ text = n.charsWith mark

theorem charsWith_e (n : Numeral) : n.charsWith 'e' = n.chars := by
  obtain ⟨negative, whole, fraction, exponent⟩ := n
  cases exponent <;> rfl

theorem spells_chars {n : Numeral} (formed : n.WellFormed) : Spells n.chars n :=
  ⟨formed, 'e', rfl, (charsWith_e n).symm⟩

/-- Every spelling of a numeral has one length. -/
theorem length_of_spells {text : List Char} {n : Numeral} (spelled : Spells text n) :
    text.length = n.chars.length := by
  obtain ⟨_, mark, _, rfl⟩ := spelled
  obtain ⟨negative, whole, fraction, exponent⟩ := n
  cases exponent <;> simp [charsWith, chars, markedChars, exponentChars, signChars]

theorem visible_of_isDigit {c : Char} (digit : c.isDigit = true) :
    0x20 < c.toNat ∧ c.toNat < 0x80 := by
  simp only [Char.isDigit, Bool.and_eq_true, decide_eq_true_eq] at digit
  have first : '0'.toNat ≤ c.toNat := digit.1
  have last : c.toNat ≤ '9'.toNat := digit.2
  exact ⟨Nat.lt_of_lt_of_le (by decide) first, Nat.lt_of_le_of_lt last (by decide)⟩

/-- A number is spelled with characters that show and take one octet. -/
theorem visible_of_spells {text : List Char} {n : Numeral} (spelled : Spells text n) :
    ∀ c ∈ text, 0x20 < c.toNat ∧ c.toNat < 0x80 := by
  obtain ⟨formed, mark, isMark, rfl⟩ := spelled
  have digits {text : List Char} (isDigits : IsDigits text) :
      ∀ c ∈ text, 0x20 < c.toNat ∧ c.toNat < 0x80 :=
    fun c member => visible_of_isDigit (isDigits.2 c member)
  have sign : ∀ c ∈ n.signChars, 0x20 < c.toNat ∧ c.toNat < 0x80 := by
    rw [signChars]
    split
    next => exact List.forall_mem_singleton.2 (by decide)
    next => exact List.forall_mem_nil _
  have fraction : ∀ c ∈ fractionChars n.fraction, 0x20 < c.toNat ∧ c.toNat < 0x80 := by
    cases shape : n.fraction with
    | none => exact List.forall_mem_nil _
    | some behind => exact List.forall_mem_cons.2 ⟨by decide, digits (formed.fraction _ shape)⟩
  have exponent : ∀ c ∈ markedChars mark n.exponent, 0x20 < c.toNat ∧ c.toNat < 0x80 := by
    cases shape : n.exponent with
    | none => exact List.forall_mem_nil _
    | some e =>
        have marks : 0x20 < mark.toNat ∧ mark.toNat < 0x80 := by
          simp only [isExponentMark, Bool.or_eq_true, decide_eq_true_eq] at isMark
          rcases isMark with rfl | rfl <;> decide
        have signs : ∀ c ∈ e.sign.chars, 0x20 < c.toNat ∧ c.toNat < 0x80 := by
          cases e.sign with
          | bare => exact List.forall_mem_nil _
          | plus => exact List.forall_mem_singleton.2 (by decide)
          | minus => exact List.forall_mem_singleton.2 (by decide)
        exact List.forall_mem_cons.2
          ⟨marks, List.forall_mem_append.2 ⟨signs, digits (formed.exponent e shape)⟩⟩
  simp only [charsWith, List.forall_mem_append]
  exact ⟨⟨⟨sign, digits formed.whole⟩, fraction⟩, exponent⟩

/-! ## The exponent's sign -/

theorem wellFormed_explicit {n : Numeral} (formed : n.WellFormed) : n.explicit.WellFormed where
  whole := formed.whole
  fraction := formed.fraction
  exponent := by
    intro e present
    obtain ⟨raw, rawPresent, rfl⟩ := Option.map_eq_some_iff.1 present
    exact formed.exponent raw rawPresent

/-- Writing out the sign of an exponent takes one character at most. -/
theorem length_explicit_le (n : Numeral) : n.explicit.chars.length ≤ n.chars.length + 1 := by
  have sign (s : ExponentSign) : s.explicit.chars.length ≤ s.chars.length + 1 := by
    cases s <;> simp [ExponentSign.explicit, ExponentSign.chars]
  cases present : n.exponent with
  | none => simp [explicit, chars, present]
  | some e =>
      have := sign e.sign
      simp only [explicit, chars, present, Option.map_some, exponentChars, List.length_append,
        List.length_cons]
      omega

/-! ## Reading -/

theorem takeSign_append {sign : ExponentSign} {digits rest : List Char}
    (isDigits : IsDigits digits) :
    takeSign (sign.chars ++ (digits ++ rest)) = (sign, digits ++ rest) := by
  obtain ⟨c, more, rfl⟩ := List.exists_cons_of_ne_nil isDigits.1
  have digit := isDigits.2 c (.head _)
  cases sign with
  | plus => rfl
  | minus => rfl
  | bare =>
      simp only [ExponentSign.chars, List.nil_append, List.cons_append]
      rw [takeSign.eq_def]
      split
      next shape => cases shape; cases digit
      next shape => cases shape; cases digit
      next => rfl

theorem takeSign_eq {text rest : List Char} {sign : ExponentSign}
    (taken : takeSign text = (sign, rest)) : text = sign.chars ++ rest := by
  rw [takeSign.eq_def] at taken
  split at taken <;> cases taken <;> rfl

theorem takeMinus_append {n : Numeral} {rest : List Char} (isDigits : IsDigits n.whole) :
    takeMinus (n.signChars ++ (n.whole ++ rest)) = (n.negative, n.whole ++ rest) := by
  obtain ⟨c, more, whole⟩ := List.exists_cons_of_ne_nil isDigits.1
  have digit := isDigits.2 c (whole ▸ .head _)
  rw [whole, signChars]
  cases n.negative with
  | true => rfl
  | false =>
      simp only [Bool.false_eq_true, if_false, List.nil_append, List.cons_append]
      rw [takeMinus.eq_def]
      split
      next shape => cases shape; cases digit
      next => rfl

theorem takeMinus_eq {text rest : List Char} {negative : Bool}
    (taken : takeMinus text = (negative, rest)) :
    text = (if negative then ['-'] else []) ++ rest := by
  rw [takeMinus.eq_def] at taken
  split at taken <;> cases taken <;> rfl

theorem isDigit_of_mark {mark : Char} (isMark : isExponentMark mark = true) :
    mark.isDigit = false ∧ mark ≠ '.' := by
  simp only [isExponentMark, Bool.or_eq_true, decide_eq_true_eq] at isMark
  rcases isMark with rfl | rfl <;> decide

theorem isDigit_not_mark {c : Char} (digit : c.isDigit = true) : isExponentMark c = false := by
  cases isMark : isExponentMark c with
  | false => rfl
  | true => rw [(isDigit_of_mark isMark).1] at digit; cases digit

theorem digits?_eq_some {digits : List Char} (isDigits : IsDigits digits) :
    digits? digits = some digits := by
  have all : digits.all Char.isDigit = true := List.all_eq_true.2 isDigits.2
  simp [digits?, all, isDigits.1]

theorem exponent?_eq_some {e : Exponent} (isDigits : IsDigits e.digits) :
    exponent? (e.sign.chars ++ e.digits) = some e := by
  have taken := @takeSign_append e.sign e.digits [] isDigits
  rw [List.append_nil] at taken
  simp [exponent?, taken, digits?_eq_some isDigits]

/-- Before the mark of an exponent stands no other. -/
theorem split_exponent {text : List Char} {mark : Char}
    (plain : ∀ c ∈ text, isExponentMark c = false) (isMark : isExponentMark mark = true)
    (exponent : Option Exponent) :
    (text ++ markedChars mark exponent).takeWhile (!isExponentMark ·) = text
      ∧ (text ++ markedChars mark exponent).dropWhile (!isExponentMark ·)
        = markedChars mark exponent := by
  have all : ∀ c ∈ text, (!isExponentMark c) = true := fun c member => by rw [plain c member]; rfl
  rw [List.takeWhile_append_of_pos all, List.dropWhile_append_of_pos all]
  cases exponent <;> simp [markedChars, isMark]

/-- Before the point of a fraction stands no other. -/
theorem split_fraction {digits : List Char} (isDigits : IsDigits digits)
    (fraction : Option (List Char)) :
    (digits ++ fractionChars fraction).takeWhile (· ≠ '.') = digits
      ∧ (digits ++ fractionChars fraction).dropWhile (· ≠ '.') = fractionChars fraction := by
  have all : ∀ c ∈ digits, decide (c ≠ '.') = true := by
    intro c member
    rw [decide_eq_true_eq]
    rintro rfl
    cases isDigits.2 '.' member
  rw [List.takeWhile_append_of_pos all, List.dropWhile_append_of_pos all]
  cases fraction <;> simp [fractionChars]

/-- A spelling of a numeral is read as the numeral. -/
theorem parse?_of_spells {text : List Char} {n : Numeral} (spelled : Spells text n) :
    parse? text = some n := by
  obtain ⟨formed, mark, isMark, rfl⟩ := spelled
  have plain : ∀ c ∈ n.whole ++ fractionChars n.fraction, isExponentMark c = false := by
    intro c member
    rcases List.mem_append.1 member with whole | fraction
    · exact isDigit_not_mark (formed.whole.2 c whole)
    · cases present : n.fraction with
      | none => simp [present, fractionChars] at fraction
      | some digits =>
          rw [present, fractionChars, List.mem_cons] at fraction
          rcases fraction with rfl | digit
          · rfl
          · exact isDigit_not_mark ((formed.fraction digits present).2 c digit)
  have shape : n.charsWith mark = n.signChars
      ++ (n.whole ++ (fractionChars n.fraction ++ markedChars mark n.exponent)) := by
    simp [charsWith]
  have sides := split_exponent plain isMark n.exponent
  have digits := split_fraction formed.whole n.fraction
  rw [List.append_assoc] at sides
  have exponent : afterMark? exponent? (markedChars mark n.exponent) = some n.exponent := by
    cases present : n.exponent with
    | none => rfl
    | some e => simp [markedChars, afterMark?, exponent?_eq_some (formed.exponent e present)]
  have fraction : afterMark? digits? (fractionChars n.fraction) = some n.fraction := by
    cases present : n.fraction with
    | none => rfl
    | some more => simp [fractionChars, afterMark?, digits?_eq_some (formed.fraction more present)]
  simp only [parse?, shape, takeMinus_append formed.whole, sides, digits, exponent, fraction,
    digits?_eq_some formed.whole, Option.bind_eq_bind, Option.bind_some]

theorem parse?_chars {n : Numeral} (formed : n.WellFormed) : parse? n.chars = some n :=
  parse?_of_spells (spells_chars formed)

/-! ## What is read -/

theorem isDigits_of_digits? {text digits : List Char} (read : digits? text = some digits) :
    IsDigits digits ∧ text = digits := by
  rw [digits?] at read
  split at read
  next => cases read
  next filled =>
    cases read
    simp only [Bool.or_eq_true, List.isEmpty_iff, Bool.not_eq_true', not_or,
      Bool.not_eq_false] at filled
    exact ⟨⟨filled.1, List.all_eq_true.1 filled.2⟩, rfl⟩

theorem of_exponent? {text : List Char} {e : Exponent} (read : exponent? text = some e) :
    IsDigits e.digits ∧ text = e.sign.chars ++ e.digits := by
  rw [exponent?] at read
  generalize taken : takeSign text = pair at read
  obtain ⟨sign, rest⟩ := pair
  obtain ⟨digits, found, rfl⟩ := Option.map_eq_some_iff.1 read
  obtain ⟨isDigits, rfl⟩ := isDigits_of_digits? found
  exact ⟨isDigits, takeSign_eq taken⟩

/-- A text is split at the first character of a kind, and what stands behind it was read. -/
theorem of_afterMark? {α : Type} {read? : List Char → Option α} {text : List Char}
    {isMark : Char → Bool} {found : Option α}
    (read : afterMark? read? (text.dropWhile (!isMark ·)) = some found) :
    (text = text.takeWhile (!isMark ·) ∧ found = none)
      ∨ ∃ mark rest value, isMark mark = true
        ∧ text = text.takeWhile (!isMark ·) ++ mark :: rest
        ∧ read? rest = some value ∧ found = some value := by
  have whole := List.takeWhile_append_dropWhile (p := (!isMark ·)) (l := text)
  cases shape : text.dropWhile (!isMark ·) with
  | nil =>
      rw [shape] at read whole
      cases read
      exact .inl ⟨by simpa using whole.symm, rfl⟩
  | cons mark rest =>
      rw [shape] at read whole
      obtain ⟨value, inside, rfl⟩ := Option.map_eq_some_iff.1 read
      have first := List.head?_dropWhile_not (!isMark ·) text
      rw [shape] at first
      exact .inr ⟨mark, rest, value, by simpa using first, whole.symm, inside, rfl⟩

/-- Behind a mantissa stands an exponent, or nothing. -/
theorem exponent_of_afterMark? {text : List Char} {exponent : Option Exponent}
    (read : afterMark? exponent? (text.dropWhile (!isExponentMark ·)) = some exponent) :
    (∀ e, exponent = some e → IsDigits e.digits)
      ∧ ∃ mark, isExponentMark mark = true
        ∧ text = text.takeWhile (!isExponentMark ·) ++ markedChars mark exponent := by
  rcases of_afterMark? read with ⟨whole, rfl⟩ | ⟨mark, rest, e, isMark, whole, inside, rfl⟩
  · exact ⟨nofun, 'e', rfl, by rw [markedChars, List.append_nil]; exact whole⟩
  · obtain ⟨isDigits, rfl⟩ := of_exponent? inside
    refine ⟨?_, mark, isMark, by rw [markedChars, List.cons_append]; exact whole⟩
    rintro _ ⟨⟩
    exact isDigits

/-- Behind the digits before a point stands a fraction, or nothing. -/
theorem fraction_of_afterMark? {text : List Char} {fraction : Option (List Char)}
    (read : afterMark? digits? (text.dropWhile (· ≠ '.')) = some fraction) :
    (∀ digits, fraction = some digits → IsDigits digits)
      ∧ text = text.takeWhile (· ≠ '.') ++ fractionChars fraction := by
  have point : (fun c : Char => decide (c ≠ '.')) = fun c => !decide (c = '.') := by
    funext c
    simp
  rw [point] at read ⊢
  rcases of_afterMark? read with ⟨whole, rfl⟩ | ⟨mark, rest, digits, isMark, whole, inside, rfl⟩
  · exact ⟨nofun, by rw [fractionChars, List.append_nil]; exact whole⟩
  · obtain ⟨isDigits, rfl⟩ := isDigits_of_digits? inside
    rw [of_decide_eq_true isMark] at whole
    refine ⟨?_, whole⟩
    rintro _ ⟨⟩
    exact isDigits

/-- What is read as a numeral spells it. -/
theorem spells_of_parse? {text : List Char} {n : Numeral} (read : parse? text = some n) :
    Spells text n := by
  rw [parse?] at read
  generalize taken : takeMinus text = pair at read
  obtain ⟨negative, unsigned⟩ := pair
  simp only [Option.bind_eq_bind, Option.bind_eq_some_iff, Option.some.injEq] at read
  obtain ⟨exponent, exponentRead, whole, wholeRead, fraction, fractionRead, rfl⟩ := read
  obtain ⟨exponentDigits, mark, isMark, unsignedShape⟩ := exponent_of_afterMark? exponentRead
  obtain ⟨fractionDigits, mantissaShape⟩ := fraction_of_afterMark? fractionRead
  obtain ⟨wholeDigits, wholeShape⟩ := isDigits_of_digits? wholeRead
  rw [wholeShape] at mantissaShape
  refine ⟨⟨wholeDigits, fractionDigits, exponentDigits⟩, mark, isMark, ?_⟩
  rw [takeMinus_eq taken, unsignedShape, mantissaShape]
  simp only [charsWith, signChars, List.append_assoc]

end SignedFacts.Numeral
