import SignedFacts.Proofs.Json.Grammar

/-!
# The scanners against the grammar

Each scanner of `Json.Scan` takes off the front of a text exactly what the
grammar calls a token of its kind.  There are two lemmas for each: what the
grammar spells is scanned, if nothing behind it could be part of it, and what
was scanned is spelled by the grammar.
-/

namespace SignedFacts.Json

/-! ## Steps that succeed -/

theorem of_map_eq_ok {ε α β : Type} {result : Except ε α} {f : α → β} {b : β}
    (mapped : result.map f = .ok b) : ∃ a, result = .ok a ∧ f a = b := by
  cases result with
  | error e => cases mapped
  | ok a => exact ⟨a, rfl, Except.ok.inj mapped⟩

theorem of_bind_eq_ok {ε α β : Type} {result : Except ε α} {f : α → Except ε β} {b : β}
    (bound : result >>= f = .ok b) : ∃ a, result = .ok a ∧ f a = .ok b := by
  cases result with
  | error e => cases bound
  | ok a => exact ⟨a, rfl, bound⟩

theorem bind_eq_ok {ε α β : Type} {result : Except ε α} {f : α → Except ε β} {a : α} {b : β}
    (first : result = .ok a) (next : f a = .ok b) : result >>= f = .ok b := by
  rw [first]
  exact next

theorem toOption_eq_some_iff {ε α : Type} {result : Except ε α} {a : α} :
    result.toOption = some a ↔ result = .ok a := by
  cases result <;> simp [Except.toOption]

/-! ## Blanks -/

theorem blank_nil : Blank [] := fun _ member => nomatch member

theorem blank_append {first second : List Char} (blankFirst : Blank first)
    (blankSecond : Blank second) : Blank (first ++ second) := by
  intro c member
  rcases List.mem_append.1 member with earlier | later
  · exact blankFirst c earlier
  · exact blankSecond c later

theorem skipSpace_append {blanks : List Char} (blank : Blank blanks) (text : List Char) :
    skipSpace (blanks ++ text) = skipSpace text :=
  List.dropWhile_append_of_pos blank

theorem skipSpace_cons {c : Char} (visible : isSpace c = false) (text : List Char) :
    skipSpace (c :: text) = c :: text := by
  simp [skipSpace, visible]

theorem skipSpace_of_blank {blanks : List Char} (blank : Blank blanks) :
    skipSpace blanks = [] := by
  simpa [skipSpace] using skipSpace_append blank []

theorem exists_blank_skipSpace (text : List Char) :
    ∃ blanks, Blank blanks ∧ text = blanks ++ skipSpace text :=
  ⟨text.takeWhile isSpace, fun _ member => List.all_eq_true.1 List.all_takeWhile _ member,
    List.takeWhile_append_dropWhile.symm⟩

theorem skipSpace_eq_cons_iff {c : Char} {text rest : List Char} (visible : isSpace c = false) :
    skipSpace text = c :: rest ↔ ∃ blanks, Blank blanks ∧ text = blanks ++ c :: rest := by
  constructor
  · intro shape
    obtain ⟨blanks, blank, whole⟩ := exists_blank_skipSpace text
    exact ⟨blanks, blank, shape ▸ whole⟩
  · rintro ⟨blanks, blank, rfl⟩
    rw [skipSpace_append blank, skipSpace_cons visible]

/-- Blanks in front of a mark are passed over. -/
theorem skipSpace_mark {c : Char} {blanks : List Char} (visible : isSpace c = false)
    (blank : Blank blanks) (rest : List Char) : skipSpace (blanks ++ c :: rest) = c :: rest :=
  (skipSpace_eq_cons_iff visible).2 ⟨blanks, blank, rfl⟩

/-! ## Words -/

theorem scanWord_eq_ok_iff {letters text rest : List Char} :
    scanWord letters text = .ok rest ↔ text = letters ++ rest := by
  induction letters generalizing text with
  | nil => simp [scanWord, eq_comm]
  | cons letter letters induction =>
      cases text with
      | nil => simp [scanWord]
      | cons c text =>
          by_cases same : c = letter
          · simp [scanWord, same, induction]
          · simp [scanWord, same]

/-! ## Numbers -/

/-- No digit stands at the front. -/
def EndsDigits (rest : List Char) : Prop := ∀ c ∈ rest.head?, c.isDigit = false

/-- Nothing at the front could be part of a number. -/
def EndsNumber (rest : List Char) : Prop :=
  ∀ c ∈ rest.head?, c.isDigit = false ∧ c ≠ '.' ∧ Numeral.isExponentMark c = false

theorem scanDigits_append {digits rest : List Char} (atEnd : ReadError)
    (isDigits : Numeral.IsDigits digits) (ends : EndsDigits rest) :
    scanDigits atEnd (digits ++ rest) = .ok (digits, rest) := by
  have take : (digits ++ rest).takeWhile Char.isDigit = digits := by
    rw [List.takeWhile_append_of_pos isDigits.2]
    cases rest with
    | nil => simp
    | cons c rest => simp [ends c rfl]
  have drop : (digits ++ rest).dropWhile Char.isDigit = rest := by
    rw [List.dropWhile_append_of_pos isDigits.2]
    cases rest with
    | nil => rfl
    | cons c rest => simp [ends c rfl]
  cases digits with
  | nil => exact absurd rfl isDigits.1
  | cons c digits =>
      rw [List.cons_append] at take drop
      simp [scanDigits, take, drop, isDigits.2 c (.head _)]

theorem digits_of_scanDigits {atEnd : ReadError} {text digits rest : List Char}
    (scanned : scanDigits atEnd text = .ok (digits, rest)) :
    Numeral.IsDigits digits ∧ text = digits ++ rest := by
  cases text with
  | nil => simp [scanDigits] at scanned
  | cons c text =>
      rw [scanDigits] at scanned
      split at scanned
      next first =>
        simp only [Except.ok.injEq, Prod.mk.injEq] at scanned
        obtain ⟨rfl, rfl⟩ := scanned
        refine ⟨⟨by simp [first], ?_⟩, List.takeWhile_append_dropWhile.symm⟩
        exact fun _ member => List.all_eq_true.1 List.all_takeWhile _ member
      next => cases scanned

theorem scanWhole_append {digits rest : List Char} (atEnd : ReadError)
    (isDigits : Numeral.IsDigits digits) (alone : digits = ['0'] ∨ digits.head? ≠ some '0')
    (ends : EndsDigits rest) :
    scanWhole atEnd (digits ++ rest) = .ok (digits, rest) := by
  have scanned := scanDigits_append atEnd isDigits ends
  rw [scanWhole.eq_def]
  split
  next c more shape =>
    rcases alone with rfl | noZero
    · simp only [List.cons_append, List.nil_append, List.cons.injEq, true_and] at shape
      subst shape
      simp [ends c rfl]
    · cases digits with
      | nil => exact absurd rfl isDigits.1
      | cons d digits =>
          simp only [List.cons_append, List.cons.injEq] at shape
          simp [shape.1] at noZero
  next => exact scanned

theorem digits_of_scanWhole {atEnd : ReadError} {text digits rest : List Char}
    (scanned : scanWhole atEnd text = .ok (digits, rest)) :
    Numeral.IsDigits digits ∧ (digits = ['0'] ∨ digits.head? ≠ some '0')
      ∧ text = digits ++ rest := by
  rw [scanWhole.eq_def] at scanned
  split at scanned
  next c more =>
    split at scanned
    next => cases scanned
    next =>
      simp only [Except.ok.injEq, Prod.mk.injEq] at scanned
      obtain ⟨rfl, rfl⟩ := scanned
      exact ⟨⟨by simp, by simp⟩, Or.inl rfl, rfl⟩
  next notZero =>
    obtain ⟨isDigits, rfl⟩ := digits_of_scanDigits scanned
    refine ⟨isDigits, ?_, rfl⟩
    -- The text does not begin with a zero and another character.
    match digits, rest with
    | [], _ => exact absurd rfl isDigits.1
    | [d], rest => by_cases zero : d = '0' <;> simp [zero]
    | d :: e :: more, rest =>
        refine Or.inr fun zero => ?_
        simp only [List.head?_cons, Option.some.injEq] at zero
        exact notZero e (more ++ rest) (by simp [zero])

theorem scanFraction_append {fraction : Option (List Char)} {rest : List Char}
    (atEnd : ReadError) (isDigits : ∀ digits, fraction = some digits → Numeral.IsDigits digits)
    (ends : EndsDigits rest) (noPoint : ∀ c ∈ rest.head?, c ≠ '.') :
    scanFraction atEnd (Numeral.fractionChars fraction ++ rest) = .ok (fraction, rest) := by
  cases fraction with
  | some digits =>
      rw [Numeral.fractionChars, List.cons_append, scanFraction,
        scanDigits_append atEnd (isDigits digits rfl) ends]
      rfl
  | none =>
      rw [Numeral.fractionChars, List.nil_append, scanFraction.eq_def]
      split
      next => exact absurd rfl (noPoint '.' rfl)
      next => rfl

theorem fraction_of_scanFraction {atEnd : ReadError} {text rest : List Char}
    {fraction : Option (List Char)}
    (scanned : scanFraction atEnd text = .ok (fraction, rest)) :
    (∀ digits, fraction = some digits → Numeral.IsDigits digits)
      ∧ text = Numeral.fractionChars fraction ++ rest := by
  rw [scanFraction.eq_def] at scanned
  split at scanned
  next more =>
    cases inside : scanDigits atEnd more with
    | error e => simp [inside, Except.map] at scanned
    | ok pair =>
        obtain ⟨digits, behind⟩ := pair
        obtain ⟨isDigits, rfl⟩ := digits_of_scanDigits inside
        simp only [inside, Except.map, Except.ok.injEq, Prod.mk.injEq] at scanned
        obtain ⟨rfl, rfl⟩ := scanned
        exact ⟨fun _ same => Option.some.inj same ▸ isDigits, rfl⟩
  next =>
    simp only [Except.ok.injEq, Prod.mk.injEq] at scanned
    obtain ⟨rfl, rfl⟩ := scanned
    exact ⟨by simp, rfl⟩

theorem scanExponent_append {exponent : Option Exponent} {mark : Char} {rest : List Char}
    (atEnd : ReadError) (isMark : Numeral.isExponentMark mark = true)
    (isDigits : ∀ e, exponent = some e → Numeral.IsDigits e.digits) (ends : EndsNumber rest) :
    scanExponent atEnd (Numeral.markedChars mark exponent ++ rest) = .ok (exponent, rest) := by
  cases exponent with
  | some e =>
      have digits := isDigits e rfl
      have endsDigits : EndsDigits rest := fun c first => (ends c first).1
      simp only [Numeral.markedChars, List.cons_append, List.append_assoc, scanExponent, isMark,
        if_true, Numeral.takeSign_append digits, scanDigits_append atEnd digits endsDigits]
      rfl
  | none =>
      cases rest with
      | nil => rfl
      | cons c rest => simp [Numeral.markedChars, scanExponent, (ends c rfl).2.2]

theorem exponent_of_scanExponent {atEnd : ReadError} {text rest : List Char}
    {exponent : Option Exponent}
    (scanned : scanExponent atEnd text = .ok (exponent, rest)) :
    (∀ e, exponent = some e → Numeral.IsDigits e.digits)
      ∧ ∃ mark, Numeral.isExponentMark mark = true
        ∧ text = Numeral.markedChars mark exponent ++ rest := by
  cases text with
  | nil =>
      cases scanned
      exact ⟨by simp, 'e', rfl, rfl⟩
  | cons c text =>
      rw [scanExponent] at scanned
      split at scanned
      next isMark =>
        generalize taken : Numeral.takeSign text = pair at scanned
        obtain ⟨sign, more⟩ := pair
        cases inside : scanDigits atEnd more with
        | error e => simp [inside, Except.map] at scanned
        | ok pair =>
            obtain ⟨digits, behind⟩ := pair
            obtain ⟨isDigits, rfl⟩ := digits_of_scanDigits inside
            simp only [inside, Except.map, Except.ok.injEq, Prod.mk.injEq] at scanned
            obtain ⟨rfl, rfl⟩ := scanned
            refine ⟨fun _ same => Option.some.inj same ▸ isDigits, c, isMark, ?_⟩
            rw [Numeral.takeSign_eq taken]
            simp [Numeral.markedChars]
      next =>
        cases scanned
        exact ⟨by simp, 'e', rfl, rfl⟩

/-- A spelled number is scanned, if what follows is no part of it. -/
theorem scanNumeral_append {text rest : List Char} {n : Numeral} (atEnd : ReadError)
    (spelled : SpellsNumber text n) (ends : EndsNumber rest) :
    scanNumeral atEnd (text ++ rest) = .ok (n, rest) := by
  obtain ⟨⟨formed, mark, isMark, rfl⟩, alone⟩ := spelled
  have markEnds : EndsDigits (Numeral.markedChars mark n.exponent ++ rest)
      ∧ ∀ c ∈ (Numeral.markedChars mark n.exponent ++ rest).head?, c ≠ '.' := by
    cases n.exponent with
    | none => exact ⟨fun c first => (ends c first).1, fun c first => (ends c first).2.1⟩
    | some e =>
        have first := Numeral.isDigit_of_mark isMark
        exact ⟨fun c same => Option.some.inj same ▸ first.1,
          fun c same => Option.some.inj same ▸ first.2⟩
  have pointEnds : EndsDigits
      (Numeral.fractionChars n.fraction ++ (Numeral.markedChars mark n.exponent ++ rest)) := by
    cases n.fraction with
    | none => exact markEnds.1
    | some digits => exact fun c same => Option.some.inj same ▸ rfl
  simp only [scanNumeral, Numeral.charsWith, List.append_assoc,
    Numeral.takeMinus_append formed.whole, scanWhole_append atEnd formed.whole alone pointEnds,
    scanFraction_append atEnd formed.fraction markEnds.1 markEnds.2,
    scanExponent_append atEnd isMark formed.exponent ends, bind, Except.bind]

/-- What was scanned as a number is spelled as one. -/
theorem spellsNumber_of_scanNumeral {atEnd : ReadError} {text rest : List Char} {n : Numeral}
    (scanned : scanNumeral atEnd text = .ok (n, rest)) :
    ∃ spelled, SpellsNumber spelled n ∧ text = spelled ++ rest := by
  rw [scanNumeral] at scanned
  generalize taken : Numeral.takeMinus text = pair at scanned
  obtain ⟨negative, unsigned⟩ := pair
  obtain ⟨⟨whole, afterWhole⟩, first, scanned⟩ := of_bind_eq_ok scanned
  obtain ⟨⟨fraction, afterFraction⟩, second, scanned⟩ := of_bind_eq_ok scanned
  obtain ⟨⟨exponent, afterExponent⟩, third, same⟩ := of_bind_eq_ok scanned
  cases same
  obtain ⟨wholeDigits, alone, rfl⟩ := digits_of_scanWhole first
  obtain ⟨fractionDigits, rfl⟩ := fraction_of_scanFraction second
  obtain ⟨exponentDigits, mark, isMark, rfl⟩ := exponent_of_scanExponent third
  refine ⟨_, ⟨⟨⟨wholeDigits, fractionDigits, exponentDigits⟩, mark, isMark, rfl⟩, alone⟩, ?_⟩
  rw [Numeral.takeMinus_eq taken]
  simp [Numeral.charsWith, Numeral.signChars]

/-! ## Strings -/

/-- The half octet of a character is its value as a hexadecimal digit. -/
theorem halfOctet?_eq_hexValue? (c : Char) :
    (if c.toNat < 128 then (Hex.halfOctet? (UInt8.ofNat c.toNat)).map UInt8.toNat else none)
      = hexValue? c := by
  have bounds (low high : Char) : low ≤ c ∧ c ≤ high ↔ low.toNat ≤ c.toNat ∧ c.toNat ≤ high.toNat :=
    Iff.rfl
  simp only [hexValue?, bounds, Char.reduceToNat]
  split
  next small =>
    have octet : (UInt8.ofNat c.toNat).toNat = c.toNat := by
      rw [UInt8.toNat_ofNat']
      omega
    have minus (offset : UInt8) (le : offset.toNat ≤ c.toNat) :
        (UInt8.ofNat c.toNat - offset).toNat = c.toNat - offset.toNat := by
      rw [UInt8.toNat_sub_of_le _ _ (by rwa [UInt8.le_iff_toNat_le, octet]), octet]
    simp only [Hex.halfOctet?, UInt8.le_iff_toNat_le, octet, UInt8.reduceToNat]
    split
    next decimal => exact congrArg some (minus 48 decimal.1)
    next =>
      split
      next lower => exact congrArg some (minus 87 (by simp; omega))
      next =>
        split
        next upper => exact congrArg some (minus 55 (by simp; omega))
        next => rfl
  next large =>
    rw [if_neg (by omega), if_neg (by omega), if_neg (by omega)]

/-- The digits are characters of one octet. -/
theorem small_of_hexValue? {c : Char} {half : Nat} (read : hexValue? c = some half) :
    c.toNat < 0x80 := by
  rw [← halfOctet?_eq_hexValue?] at read
  split at read
  next small => exact small
  next => cases read

theorem unit?_eq_some_iff {p q r s : Char} {number : Nat} :
    unit? p q r s = some number ↔ SpellsUnit [p, q, r, s] number := by
  simp only [unit?, halfOctet?_eq_hexValue?]
  constructor
  · intro read
    simp only [Option.bind_eq_bind, Option.bind_eq_some_iff, Option.some.injEq] at read
    obtain ⟨a, first, b, second, c, third, d, fourth, rfl⟩ := read
    have sum : ((a * 16 + b) * 16 + c) * 16 + d = a * 4096 + b * 256 + c * 16 + d := by omega
    exact sum ▸ .digits first second third fourth
  · rintro ⟨first, second, third, fourth⟩
    simp only [first, second, third, fourth, Option.bind_eq_bind, Option.bind_some,
      Option.some.injEq]
    omega

theorem exists_unit_of_spells {digits : List Char} {number : Nat}
    (spelled : SpellsUnit digits number) :
    ∃ p q r s, digits = [p, q, r, s] ∧ unit? p q r s = some number := by
  cases spelled with
  | digits first second third fourth =>
      exact ⟨_, _, _, _, rfl, unit?_eq_some_iff.2 (.digits first second third fourth)⟩

theorem escapeChar?_eq_some_iff {letter c : Char} :
    escapeChar? letter = some c ↔ (letter, c) ∈ escapes := by
  rw [escapeChar?.eq_def]
  split <;> simp_all [escapes, eq_comm]

theorem isLowUnit_iff {unit : Nat} : isLowUnit unit = true ↔ 0xDC00 ≤ unit ∧ unit ≤ 0xDFFF := by
  simp [isLowUnit]

theorem isHighUnit_iff {unit : Nat} :
    isHighUnit unit = true ↔ 0xD800 ≤ unit ∧ unit ≤ 0xDBFF := by
  simp [isHighUnit]

theorem pairChar_eq (high low : Nat) :
    pairChar high low
      = Char.ofNat (0x10000 + (high - 0xD800) * 0x400 + (low - 0xDC00)) := by
  unfold pairChar
  exact congrArg Char.ofNat (by omega)

section Steps

variable {size : Char → Nat} {done rest : List Char}

theorem scanString_quote : scanString size done ('"' :: rest) = .ok (done.reverse, rest) := by
  rw [scanString.eq_def]
  simp

theorem scanString_plain {c : Char} (noQuote : c ≠ '"') (noEscape : c ≠ '\\')
    (visible : 0x20 ≤ c.toNat) :
    scanString size done (c :: rest) = scanString size (c :: done) rest := by
  rw [scanString.eq_def]
  simp [noQuote, noEscape, Nat.not_lt.2 visible]

theorem scanString_escape {letter c : Char} (known : (letter, c) ∈ escapes) :
    scanString size done ('\\' :: letter :: rest) = scanString size (c :: done) rest := by
  have noNumber : letter ≠ 'u' := by
    rintro rfl
    revert known
    simp [escapes]
  rw [scanString.eq_def]
  simp [noNumber, escapeChar?_eq_some_iff.2 known]

theorem scanString_unit {digits : List Char} {number : Nat}
    (spelled : SpellsUnit digits number) (noHalf : ¬ IsSurrogate number) :
    scanString size done ('\\' :: 'u' :: (digits ++ rest))
      = scanString size (Char.ofNat number :: done) rest := by
  obtain ⟨p, q, r, s, rfl, read⟩ := exists_unit_of_spells spelled
  have noLow : isLowUnit number = false := by
    rw [← Bool.not_eq_true, isLowUnit_iff]
    unfold IsSurrogate at noHalf
    omega
  have noHigh : isHighUnit number = false := by
    rw [← Bool.not_eq_true, isHighUnit_iff]
    unfold IsSurrogate at noHalf
    omega
  rw [scanString.eq_def]
  simp [read, noLow, noHigh]

theorem scanString_pair {digits more : List Char} {high low : Nat}
    (first : SpellsUnit digits high) (aboveHigh : 0xD800 ≤ high) (belowHigh : high ≤ 0xDBFF)
    (second : SpellsUnit more low) (aboveLow : 0xDC00 ≤ low) (belowLow : low ≤ 0xDFFF) :
    scanString size done ('\\' :: 'u' :: (digits ++ '\\' :: 'u' :: (more ++ rest)))
      = scanString size
          (Char.ofNat (0x10000 + (high - 0xD800) * 0x400 + (low - 0xDC00)) :: done) rest := by
  obtain ⟨p, q, r, s, rfl, readHigh⟩ := exists_unit_of_spells first
  obtain ⟨t, u, v, w, rfl, readLow⟩ := exists_unit_of_spells second
  have isHigh : isHighUnit high = true := isHighUnit_iff.2 ⟨aboveHigh, belowHigh⟩
  have isLow : isLowUnit low = true := isLowUnit_iff.2 ⟨aboveLow, belowLow⟩
  have noLow : isLowUnit high = false := by
    rw [← Bool.not_eq_true, isLowUnit_iff]
    omega
  rw [scanString.eq_def]
  simp [readHigh, readLow, isHigh, isLow, noLow, pairChar_eq]

end Steps

/-- A spelled string is scanned up to its closing quote. -/
theorem scanString_append {size : Char → Nat} {text chars : List Char}
    (spelled : SpellsString text chars) (done rest : List Char) :
    scanString size done (text ++ '"' :: rest) = .ok (done.reverse ++ chars, rest) := by
  induction spelled generalizing done with
  | nil => rw [List.nil_append, List.append_nil, scanString_quote]
  | plain noQuote noEscape visible _ induction =>
      rw [List.cons_append, scanString_plain noQuote noEscape visible, induction]
      simp
  | escape known _ induction =>
      rw [List.cons_append, List.cons_append, scanString_escape known, induction]
      simp
  | unit digits noHalf _ induction =>
      simp only [List.cons_append, List.append_assoc]
      rw [scanString_unit digits noHalf, induction]
      simp
  | pair digits aboveHigh belowHigh more aboveLow belowLow _ induction =>
      simp only [List.cons_append, List.append_assoc]
      rw [scanString_pair digits aboveHigh belowHigh more aboveLow belowLow, induction]
      simp

/-- A text between quotes spells one string. -/
theorem spellsString_unique {text chars others : List Char} (spelled : SpellsString text chars)
    (spelledToo : SpellsString text others) : chars = others := by
  have first := @scanString_append Char.utf8Size _ _ spelled [] []
  rw [scanString_append spelledToo] at first
  exact (congrArg Prod.fst (Except.ok.inj first)).symm

/-- What was scanned as a string past the characters in hand is spelled by the
text up to a closing quote. -/
theorem spellsString_of_scanString {size : Char → Nat} {done text chars rest : List Char}
    (scanned : scanString size done text = .ok (chars, rest)) :
    ∃ spelled tail, SpellsString spelled tail ∧ chars = done.reverse ++ tail
      ∧ text = spelled ++ '"' :: rest := by
  -- A step that goes on puts one character in front of the tail.
  have step {done : List Char} {c : Char} {text : List Char} (token : List Char)
      (grow : ∀ {spelled tail}, SpellsString spelled tail →
        SpellsString (token ++ spelled) (c :: tail))
      (more : ∃ spelled tail, SpellsString spelled tail ∧ chars = (c :: done).reverse ++ tail
        ∧ text = spelled ++ '"' :: rest) :
      ∃ spelled tail, SpellsString spelled tail ∧ chars = done.reverse ++ tail
        ∧ token ++ text = spelled ++ '"' :: rest := by
    obtain ⟨spelled, tail, spells, rfl, rfl⟩ := more
    exact ⟨token ++ spelled, c :: tail, grow spells, by simp, by simp⟩
  fun_induction scanString size done text with
  | case2 done tail =>
      cases scanned
      exact ⟨[], [], .nil, by simp, rfl⟩
  | case7 done p q r s high readHigh notLow isHigh t u v w behind low readLow isLow _ induction =>
      rw [isHighUnit_iff] at isHigh
      rw [isLowUnit_iff] at isLow
      rw [pairChar_eq] at induction scanned
      exact step (['\\', 'u', p, q, r, s] ++ ['\\', 'u', t, u, v, w])
        (.pair (unit?_eq_some_iff.1 readHigh) isHigh.1 isHigh.2 (unit?_eq_some_iff.1 readLow)
          isLow.1 isLow.2) (induction scanned)
  | case10 done p q r s behind number read notLow notHigh _ induction =>
      have noHalf : ¬ IsSurrogate number := by
        rw [isLowUnit_iff] at notLow
        rw [isHighUnit_iff] at notHigh
        unfold IsSurrogate
        omega
      exact step ['\\', 'u', p, q, r, s] (.unit (unit?_eq_some_iff.1 read) noHalf)
        (induction scanned)
  | case12 done letter behind _ notNumber c known _ induction =>
      exact step ['\\', letter] (.escape (escapeChar?_eq_some_iff.1 known)) (induction scanned)
  | case15 done c behind notQuote notEscape visible induction =>
      exact step [c] (.plain notQuote notEscape (Nat.not_lt.1 visible)) (induction scanned)
  | _ => cases scanned

theorem spellsString_of_scanString_nil {size : Char → Nat} {text chars rest : List Char}
    (scanned : scanString size [] text = .ok (chars, rest)) :
    ∃ spelled, SpellsString spelled chars ∧ text = spelled ++ '"' :: rest := by
  obtain ⟨spelled, tail, spells, rfl, rfl⟩ := spellsString_of_scanString scanned
  exact ⟨spelled, spells, rfl⟩

end SignedFacts.Json
