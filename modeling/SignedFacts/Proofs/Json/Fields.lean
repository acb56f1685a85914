import SignedFacts.Json.Fields
import SignedFacts.Proofs.Json.Layout
import SignedFacts.Proofs.Json.Soundness
import SignedFacts.Proofs.Number.Canonical
import SignedFacts.Proofs.Value.Canonical

/-!
# Reading into fields

A structure is read from the texts of its values, and each of them changes the state.  `Exact`
says of a reader which texts it takes off the front and what they do to the state, by a relation
that does not mention the reader.

Such readers are put together.  They are set behind a colon (`Exact.behindColon`) and read a part
of the state (`ExactItem.within`), and in the end there is one for an object with all its members
or a list with all its items (`exact_readFields`).
-/

namespace SignedFacts.Json

/-! ## Readers -/

section Readers

variable {σ α : Type} {limit bound : Nat}

/-- One step after another, each with its own item. -/
inductive Steps (Step : σ → α → σ → Prop) : σ → List α → σ → Prop where
  | nil {state : σ} : Steps Step state [] state
  | cons {state middle after : σ} {item : α} {items : List α} :
      Step state item middle → Steps Step middle items after →
      Steps Step state (item :: items) after

/-- What the text of a value does to the state, for the field that it belongs to. -/
def Named {φ : Type} (Takes : φ → σ → List Char → σ → Prop) (state : σ) (entry : φ × List Char)
    (after : σ) : Prop := Takes entry.1 state entry.2 after

/-- A reader takes the texts that a relation allows off the front, with what they do to the
state, and no others.  It need not take texts that are longer than the limit. -/
structure Exact (limit : Nat) (reader : FieldReader σ) (Takes : σ → List Char → σ → Prop) :
    Prop where
  sound {state after : σ} {text rest : List Char} : reader state text = .ok (after, rest) →
    ∃ part, text = part ++ rest ∧ Takes state part after
  complete {state after : σ} {part : List Char} (rest : List Char) : Takes state part after →
    part.length ≤ limit → EndsNumber rest → reader state (part ++ rest) = .ok (after, rest)

/-- Blanks before the value make no difference to the reader, and no value is taken for the end
of a list. -/
structure ExactItem (limit : Nat) (reader : FieldReader σ) (Takes : σ → List Char → σ → Prop) :
    Prop extends Exact limit reader Takes where
  behindSpace (state : σ) (text : List Char) : reader state (skipSpace text) = reader state text
  front {state after : σ} {part : List Char} : Takes state part after →
    ∃ blanks c more, Blank blanks ∧ part = blanks ++ c :: more ∧ isSpace c = false ∧ c ≠ ']'

/-- A colon and a text that is taken. -/
def BehindColon (Takes : σ → List Char → σ → Prop) (state : σ) (text : List Char) (after : σ) :
    Prop :=
  ∃ blanks part, Blank blanks ∧ text = blanks ++ ':' :: part ∧ Takes state part after

theorem Exact.behindColon {reader : FieldReader σ} {Takes : σ → List Char → σ → Prop}
    (exact : Exact limit reader Takes) :
    Exact limit (fun state text => readColon text >>= reader state) (BehindColon Takes) where
  sound := by
    intro state after text rest read
    obtain ⟨behind, colon, first⟩ := of_bind_eq_ok read
    obtain ⟨blanks, blank, rfl⟩ := readColon_eq_ok_iff.1 colon
    obtain ⟨part, rfl, taken⟩ := exact.sound first
    exact ⟨blanks ++ ':' :: part, by simp, blanks, part, blank, rfl, taken⟩
  complete := by
    rintro state after _ rest ⟨blanks, part, blank, rfl, taken⟩ short ends
    have colon : readColon (blanks ++ ':' :: (part ++ rest)) = .ok (part ++ rest) :=
      readColon_eq_ok_iff.2 ⟨blanks, blank, rfl⟩
    rw [List.length_append, List.length_cons] at short
    simp only [List.append_assoc, List.cons_append, colon, bind, Except.bind]
    exact exact.complete rest taken (by omega) ends

/-- A reader that looks at the state before it goes on to the colon. -/
theorem Exact.fresh {reader : FieldReader σ} {Takes : σ → List Char → σ → Prop}
    (exact : Exact limit reader Takes) (refused : σ → Prop) [DecidablePred refused]
    (cause : ReadError) :
    Exact limit
      (fun state text => if refused state then .error cause else readColon text >>= reader state)
      (BehindColon fun state part after => ¬ refused state ∧ Takes state part after) where
  sound := by
    intro state after text rest read
    split at read
    next => cases read
    next fresh =>
      obtain ⟨part, rfl, blanks, value, blank, rfl, taken⟩ := exact.behindColon.sound read
      exact ⟨_, rfl, blanks, value, blank, rfl, fresh, taken⟩
  complete := by
    rintro state after _ rest ⟨blanks, value, blank, rfl, fresh, taken⟩ short ends
    rw [if_neg fresh]
    exact exact.behindColon.complete rest ⟨blanks, value, blank, rfl, taken⟩ short ends

/-- A reader of a part of the state, or of something that is then stored in it. -/
theorem ExactItem.within {τ : Type} {reader : FieldReader τ} {Takes : τ → List Char → τ → Prop}
    (exact : ExactItem limit reader Takes) (load : σ → τ) (store : σ → τ → σ) :
    ExactItem limit
      (fun state text =>
        (reader (load state) text).map fun (part, rest) => (store state part, rest))
      fun state text after => ∃ part, Takes (load state) text part ∧ after = store state part where
  sound := by
    intro state after text rest read
    obtain ⟨⟨part, behind⟩, first, same⟩ := of_map_eq_ok read
    cases same
    obtain ⟨front, rfl, taken⟩ := exact.sound first
    exact ⟨front, rfl, part, taken, rfl⟩
  complete := by
    rintro state _ text rest ⟨part, taken, rfl⟩ short ends
    simp only [exact.complete rest taken short ends, Except.map]
  behindSpace state text := by rw [exact.behindSpace]
  front := by
    rintro state _ text ⟨part, taken, rfl⟩
    exact exact.front taken

section Congr

variable {reader other : FieldReader σ} {Takes Others : σ → List Char → σ → Prop}
  (takes : ∀ state text after, Takes state text after ↔ Others state text after)

include takes

theorem Exact.congr (exact : Exact limit reader Takes)
    (reads : ∀ state text, other state text = reader state text) : Exact limit other Others where
  sound := by
    intro state after text rest read
    rw [reads] at read
    obtain ⟨part, shape, taken⟩ := exact.sound read
    exact ⟨part, shape, (takes ..).1 taken⟩
  complete := by
    intro state after part rest taken short ends
    rw [reads]
    exact exact.complete rest ((takes ..).2 taken) short ends

theorem ExactItem.congr (exact : ExactItem limit reader Takes) : ExactItem limit reader Others where
  toExact := exact.toExact.congr takes fun _ _ => rfl
  behindSpace := exact.behindSpace
  front taken := exact.front ((takes ..).2 taken)

end Congr

theorem ExactItem.front_append {reader : FieldReader σ} {Takes : σ → List Char → σ → Prop}
    {state after : σ} {part : List Char} (exact : ExactItem limit reader Takes)
    (step : Takes state part after) (rest : List Char) :
    ∃ c more, skipSpace (part ++ rest) = c :: more ∧ c ≠ ']' := by
  obtain ⟨blanks, c, more, blank, rfl, visible, noClose⟩ := exact.front step
  refine ⟨c, more ++ rest, ?_, noClose⟩
  rw [List.append_assoc, skipSpace_append blank, List.cons_append, skipSpace_cons visible]

end Readers

/-! ## Values -/

section Values

variable {σ : Type} {limit bound : Nat} {expected : String} {text blanks rest : List Char} {n : Nat}

theorem spellsNumber_count (n : Nat) :
    SpellsNumber (Nat.toDigits 10 n) ⟨false, Nat.toDigits 10 n, none, none⟩ := by
  have spelled := Value.spellsNumber_chars (.ofInt n)
  rwa [Decimal.chars_ofInt, if_neg (by omega), Int.natAbs_natCast, List.nil_append,
    Decimal.numeral_ofInt] at spelled

/-- A count is spelled with its digits and in no other way. -/
theorem spells_count_iff :
    Spells text (.number (Decimal.ofInt n).numeral) ↔ text = Nat.toDigits 10 n := by
  rw [Decimal.numeral_ofInt]
  constructor
  · intro spelled
    generalize shape : (⟨false, Nat.toDigits 10 n, none, none⟩ : Numeral) = numeral at spelled
    cases spelled with
    | @number _ m spelled =>
        obtain ⟨⟨_, mark, _, rfl⟩, _⟩ := spelled
        obtain ⟨negative, whole, fraction, _ | e⟩ := m
        · simp only [Numeral.explicit, Option.map_none, Numeral.mk.injEq] at shape
          obtain ⟨rfl, same, rfl, _⟩ := shape
          simp [Numeral.charsWith, Numeral.signChars, Numeral.fractionChars, Numeral.markedChars,
            same]
        · simp [Numeral.explicit] at shape
  · rintro rfl
    exact .number (spellsNumber_count n)

theorem count_of_readCount (read : readCount expected text = .ok (n, rest)) :
    ∃ blanks, Blank blanks ∧ text = blanks ++ (Nat.toDigits 10 n ++ rest) ∧ n < 2 ^ 64 := by
  obtain ⟨blanks, blank, whole⟩ := exists_blank_skipSpace text
  rw [readCount] at read
  generalize skipSpace text = front at whole read
  cases front with
  | nil => cases read
  | cons c front =>
      dsimp only at read
      split at read
      next =>
        obtain ⟨⟨numeral, behind⟩, scanned, read⟩ := of_bind_eq_ok read
        obtain ⟨spelled, ⟨⟨formed, mark, _, rfl⟩, alone⟩, shape⟩ :=
          spellsNumber_of_scanNumeral scanned
        dsimp only at read
        split at read
        next plain =>
          cases read
          obtain ⟨negative, digits, fraction, exponent⟩ := numeral
          simp only [Bool.and_eq_true, Option.isNone_iff_eq_none, Bool.not_eq_true] at plain
          obtain ⟨⟨rfl, rfl⟩, rfl, small⟩ := plain
          have same : Nat.toDigits 10 (Nat.ofDigitChars 10 digits 0) = digits := by
            rcases alone with zero | noZero
            · subst zero
              rfl
            · exact Numeral.toDigits_ofDigitChars formed.whole noZero
          refine ⟨blanks, blank, ?_, small⟩
          rw [whole, shape, same]
          simp [Numeral.charsWith, Numeral.signChars, Numeral.fractionChars, Numeral.markedChars]
        next =>
          split at read
          next => cases read
          next => split at read <;> cases read
      next => cases read

theorem readCount_of_count (blank : Blank blanks) (small : n < 2 ^ 64) (ends : EndsNumber rest) :
    readCount expected (blanks ++ (Nat.toDigits 10 n ++ rest)) = .ok (n, rest) := by
  have number := spellsNumber_count n
  obtain ⟨c, more, shape, head⟩ := head_of_spellsNumber number
  have scanned := scanNumeral_append .endInValue number ends
  have read := @Nat.ofDigitChars_ten_toDigits n
  have front : skipSpace (blanks ++ (Nat.toDigits 10 n ++ rest)) = c :: (more ++ rest) := by
    rw [skipSpace_append blank, shape, List.cons_append]
    exact skipSpace_cons (of_scalarHead (.inr (.inr (.inr (.inr head))))).1 _
  rw [shape, List.cons_append] at scanned
  rw [readCount, front]
  have isNumber : (decide (c = '-') || c.isDigit) = true := by simpa using head
  simp only [isNumber, if_true, scanned, bind, Except.bind]
  rw [← shape, read, if_pos ⟨rfl, by simp, small⟩]

theorem exactItem_readCount :
    ExactItem limit (fun (_ : Nat) text => readCount expected text)
      fun _ part n => Holds part (.number (Decimal.ofInt n).numeral) ∧ n < 2 ^ 64 where
  sound := by
    intro _ n text rest read
    obtain ⟨blanks, blank, rfl, small⟩ := count_of_readCount read
    exact ⟨blanks ++ Nat.toDigits 10 n, by simp,
      ⟨blanks, _, blank, rfl, spells_count_iff.2 rfl⟩, small⟩
  complete := by
    rintro _ n _ rest ⟨⟨blanks, spelled, blank, rfl, number⟩, small⟩ _ ends
    rw [List.append_assoc, spells_count_iff.1 number]
    exact readCount_of_count blank small ends
  behindSpace _ text := by simp only [readCount, skipSpace_idem]
  front taken := taken.1.front

theorem exactItem_readString :
    ExactItem limit (fun (_ : String) text => readString text)
      fun _ part s => Holds part (.string s) where
  sound := by
    intro _ s text rest read
    obtain ⟨⟨chars, behind⟩, first, same⟩ := of_map_eq_ok read
    cases same
    obtain ⟨blanks, quoted, blank, spelled, rfl⟩ := string_of_readStringFor first
    exact ⟨blanks ++ ('"' :: quoted ++ ['"']), by simp, blanks, _, blank, rfl, .string spelled⟩
  complete := by
    rintro _ _ _ rest ⟨blanks, _, blank, rfl, spelled⟩ _ _
    cases spelled with
    | @string quoted chars spelled =>
        have read := @readStringFor_string quoted [] chars rest blanks "a string" blank spelled
        simp only [List.append_nil, List.nil_append] at read
        simp only [readString, read, Except.map]
  behindSpace _ text := by simp only [readString, readStringFor, skipSpace_idem]
  front taken := taken.front

/-- A value that no one asks for is passed over, and nothing else is. -/
theorem exact_skipField (enough : limit ≤ bound) :
    Exact limit (fun (state : σ) text => (skipField bound text).map fun rest => (state, rest))
      fun state part after => after = state ∧ Cursor.Valued Char.utf8Size part where
  sound := by
    intro state after text rest read
    obtain ⟨behind, skipped, same⟩ := of_map_eq_ok read
    cases same
    obtain ⟨cursor, passed, rfl⟩ := of_map_eq_ok skipped
    obtain ⟨part, valued, ahead, _⟩ := Cursor.between_skipValue passed
    exact ⟨part, ahead, rfl, valued⟩
  complete := by
    rintro state _ part rest ⟨rfl, skippable, _⟩ short ends
    have passed := skippable bound bound (Nat.le_trans short enough) (Nat.le_refl _) 0 rest ends
    simp only [skipField, passed, Except.map]

end Values

/-! ## Objects -/

section Objects

variable {σ : Type} {limit bound : Nat} {member : String → FieldReader σ}
  {Takes : String → σ → List Char → σ → Prop} {state after : σ} {text part rest : List Char}
  {entries : List (String × List Char)}

variable (exact : ∀ key, Exact limit (member key) (BehindColon (Takes key)))

include exact

theorem row_of_readByName (read : readByName member bound state text = .ok (after, rest)) :
    ∃ part entries, text = part ++ rest ∧ Row KeyedText '\x7d' part entries
      ∧ Steps (Named Takes) state entries after := by
  induction bound generalizing state text with
  | zero => cases read
  | succ bound induction =>
      rw [readByName.eq_def] at read
      simp only at read
      split at read
      next inside =>
        obtain ⟨⟨chars, behind⟩, scanned, first⟩ := of_bind_eq_ok read
        obtain ⟨⟨middle, next⟩, taken, others⟩ := of_bind_eq_ok first
        obtain ⟨spelled, spells, rfl⟩ := spellsString_of_scanString_nil scanned
        obtain ⟨_, rfl, blanks, value, blank, rfl, step⟩ := (exact _).sound taken
        have keyed : KeyedText ('"' :: (spelled ++ '"' :: (blanks ++ ':' :: value)))
            (String.ofList chars, value) :=
          ⟨[], spelled, blanks, blank_nil, by simpa using spells, blank, rfl⟩
        split at others
        next => cases others
        next close =>
          cases others
          obtain ⟨more, blankMore, rfl⟩ := (skipSpace_eq_cons_iff rfl).1 close
          exact ⟨_, _, by simp, .last keyed blankMore, .cons step .nil⟩
        next behind comma =>
          obtain ⟨more, blankMore, rfl⟩ := (skipSpace_eq_cons_iff rfl).1 comma
          split at others
          next => cases others
          next => cases others
          next =>
            -- The reader goes on behind the blanks, which belong to the next member.
            obtain ⟨front, blankFront, whole⟩ := exists_blank_skipSpace behind
            obtain ⟨part, entries, shape, row, steps⟩ := induction others
            rw [shape] at whole
            have behindFront := row.behind fun _ _ keyed => KeyedText.behind blankFront keyed
            exact ⟨_, _, by simp [whole], .more keyed blankMore behindFront, .cons step steps⟩
        next => cases others
      next => cases read

theorem member_of_keyedText {entry : String × List Char} {middle : σ}
    (keyed : KeyedText text entry) (step : Named Takes state entry middle)
    (short : text.length ≤ limit) (ends : EndsNumber rest) :
    ∃ inside behind, skipSpace (text ++ rest) = '"' :: inside
      ∧ scanString Char.utf8Size [] inside = .ok (entry.1.toList, behind)
      ∧ member entry.1 state behind = .ok (middle, rest) := by
  obtain ⟨before, spelled, gap, blank, spells, blankGap, rfl⟩ := keyed
  simp only [List.length_append, List.length_cons] at short
  refine ⟨spelled ++ '"' :: (gap ++ ':' :: entry.2 ++ rest), _, ?_, scanString_append spells [] _,
    (exact entry.1).complete rest ⟨gap, entry.2, blankGap, rfl, step⟩ ?_ ends⟩
  · simp only [List.append_assoc, List.cons_append]
    rw [skipSpace_append blank, skipSpace_cons rfl]
  · simp only [List.length_append, List.length_cons]
    omega

/-- The members of an object are read from the front of the first key. -/
theorem readByName_of_row (row : Row KeyedText '\x7d' part entries)
    (steps : Steps (Named Takes) state entries after) (enough : part.length ≤ bound)
    (short : part.length ≤ limit) (rest : List Char) :
    readByName member bound state (skipSpace (part ++ rest)) = .ok (after, rest) := by
  induction row generalizing state bound with
  | @last text blanks entry keyed blank =>
      obtain _ | ⟨step, _ | _⟩ := steps
      simp only [List.length_append, List.length_cons, List.length_nil] at enough short
      obtain ⟨fewer, rfl⟩ := Nat.exists_eq_add_one.2 (show 0 < bound by omega)
      have ends : EndsNumber (blanks ++ '\x7d' :: rest) :=
        endsNumber_append blank (endsNumber_cons (by decide) rest)
      have close : skipSpace (blanks ++ '\x7d' :: rest) = '\x7d' :: rest :=
        skipSpace_mark rfl blank _
      obtain ⟨inside, behind, front, scanned, taken⟩ :=
        member_of_keyedText exact keyed step (by omega) ends
      simp only [List.append_assoc, List.cons_append, List.nil_append]
      simp only [readByName, front, scanned, String.ofList_toList, taken, close, bind, Except.bind]
  | @more text blanks others entry entries keyed blank row induction =>
      obtain _ | ⟨step, steps⟩ := steps
      simp only [List.length_append, List.length_cons] at enough short
      obtain ⟨fewer, rfl⟩ := Nat.exists_eq_add_one.2 (show 0 < bound by omega)
      have ends : EndsNumber (blanks ++ ',' :: (others ++ rest)) :=
        endsNumber_append blank (endsNumber_cons (by decide) _)
      have comma : skipSpace (blanks ++ ',' :: (others ++ rest)) = ',' :: (others ++ rest) :=
        skipSpace_mark rfl blank _
      obtain ⟨inside, behind, front, scanned, taken⟩ :=
        member_of_keyedText exact keyed step (by omega) ends
      obtain ⟨insideNext, next⟩ := front_of_row row rest
      have later := @induction fewer _ steps (by omega) (by omega)
      rw [next] at later
      simp only [List.append_assoc, List.cons_append]
      simp only [readByName, front, scanned, String.ofList_toList, taken, comma, next, bind,
        Except.bind]
      exact later

end Objects

/-! ## Lists -/

section Lists

variable {σ φ : Type} {limit : Nat} {reader : φ → FieldReader σ}
  {Takes : φ → σ → List Char → σ → Prop} {state after : σ} {text part rest : List Char}
  {parts : List (List Char)} {fields : List φ}

theorem closeArray_eq_ok_iff :
    closeArray text = .ok rest ↔ ∃ blanks, Blank blanks ∧ text = blanks ++ ']' :: rest := by
  rw [← skipSpace_eq_cons_iff rfl, closeArray.eq_def]
  split
  next ends => simp [ends]
  next behind close => simp [close]
  next behind comma =>
    refine iff_of_false ?_ (by simp [comma])
    split <;> nofun
  next noEnd noClose noComma => exact iff_of_false nofun (noClose rest)

variable (exact : ∀ field, ExactItem limit (reader field) (Takes field))

include exact

/-- Behind an item the list ends, or a comma and further items stand there. -/
theorem row_of_readMoreInOrder (item : List Char)
    (read : readMoreInOrder (fields.map reader) state text = .ok (after, rest)) :
    ∃ part parts, text = part ++ rest ∧ Row Eq ']' (item ++ part) (item :: parts)
      ∧ parts.length ≤ fields.length ∧ Steps (Named Takes) state (fields.zip parts) after := by
  induction fields generalizing state text item with
  | nil =>
      obtain ⟨behind, closed, same⟩ := of_map_eq_ok read
      cases same
      obtain ⟨blanks, blank, rfl⟩ := closeArray_eq_ok_iff.1 closed
      exact ⟨_, [], by simp, .last rfl blank, Nat.le_refl _, .nil⟩
  | cons field fields induction =>
      rw [List.map_cons, readMoreInOrder.eq_def] at read
      simp only at read
      split at read
      next => cases read
      next close =>
        cases read
        obtain ⟨blanks, blank, rfl⟩ := (skipSpace_eq_cons_iff rfl).1 close
        exact ⟨_, [], by simp, .last rfl blank, Nat.zero_le _, .nil⟩
      next behind comma =>
        obtain ⟨blanks, blank, rfl⟩ := (skipSpace_eq_cons_iff rfl).1 comma
        split at read
        next => cases read
        next => cases read
        next =>
          obtain ⟨⟨middle, next⟩, taken, others⟩ := of_bind_eq_ok read
          rw [(exact field).behindSpace] at taken
          obtain ⟨value, rfl, step⟩ := (exact field).sound taken
          obtain ⟨part, parts, rfl, row, fewer, steps⟩ := induction value others
          exact ⟨_, value :: parts, by simp, .more rfl blank row, Nat.succ_le_succ fewer,
            .cons step steps⟩
      next => cases read

theorem readMoreInOrder_of_row {item tail : List Char}
    (row : Row Eq ']' (item ++ tail) (item :: parts)) (fewer : parts.length ≤ fields.length)
    (steps : Steps (Named Takes) state (fields.zip parts) after) (short : tail.length ≤ limit)
    (rest : List Char) :
    readMoreInOrder (fields.map reader) state (tail ++ rest) = .ok (after, rest) := by
  induction fields generalizing state item tail parts with
  | nil =>
      obtain rfl := List.eq_nil_of_length_eq_zero (Nat.le_zero.1 fewer)
      obtain ⟨blanks, blank, ⟨_, rfl⟩ | ⟨_, _, _, same, _⟩⟩ := row.tail
      · obtain _ | _ := steps
        have closed : closeArray (blanks ++ [']'] ++ rest) = .ok rest :=
          closeArray_eq_ok_iff.2 ⟨blanks, blank, by simp⟩
        simp only [List.map_nil, readMoreInOrder, closed, Except.map]
      · cases same
  | cons field fields induction =>
      obtain ⟨blanks, blank, ⟨rfl, rfl⟩ | ⟨part, others, more, rfl, rfl, behind⟩⟩ := row.tail
      · obtain _ | _ := steps
        have close : skipSpace (blanks ++ [']'] ++ rest) = ']' :: rest :=
          (skipSpace_eq_cons_iff rfl).2 ⟨blanks, blank, by simp⟩
        simp only [List.map_cons, readMoreInOrder, close]
      · obtain _ | ⟨step, steps⟩ := steps
        have step : Takes field _ part _ := step
        simp only [List.length_append, List.length_cons] at short fewer
        have comma : skipSpace (blanks ++ ',' :: (part ++ (more ++ rest)))
            = ',' :: (part ++ (more ++ rest)) :=
          skipSpace_mark rfl blank _
        have taken := (exact field).complete (more ++ rest) step (by omega) (behind.endsNumber rest)
        have later := induction behind (by omega) steps (by omega)
        obtain ⟨c, front, shape, noClose⟩ := (exact field).front_append step (more ++ rest)
        rw [← (exact field).behindSpace, shape] at taken
        simp [readMoreInOrder, comma, shape, noClose, taken, later, bind, Except.bind]

theorem enclosed_of_readInOrder
    (read : readInOrder (fields.map reader) state text = .ok (after, rest)) :
    ∃ part parts, text = part ++ rest ∧ Enclosed Eq ']' part parts
      ∧ parts.length ≤ fields.length ∧ Steps (Named Takes) state (fields.zip parts) after := by
  cases fields with
  | nil =>
      obtain ⟨behind, closed, same⟩ := of_map_eq_ok read
      cases same
      obtain ⟨blanks, blank, rfl⟩ := closeArray_eq_ok_iff.1 closed
      exact ⟨_, [], by simp, .empty blank, Nat.le_refl _, .nil⟩
  | cons field fields =>
      rw [List.map_cons, readInOrder] at read
      split at read
      next => cases read
      next close =>
        cases read
        obtain ⟨blanks, blank, rfl⟩ := (skipSpace_eq_cons_iff rfl).1 close
        exact ⟨_, [], by simp, .empty blank, Nat.zero_le _, .nil⟩
      next =>
        obtain ⟨⟨middle, next⟩, taken, others⟩ := of_bind_eq_ok read
        rw [(exact field).behindSpace] at taken
        obtain ⟨value, rfl, step⟩ := (exact field).sound taken
        obtain ⟨part, parts, rfl, row, fewer, steps⟩ :=
          row_of_readMoreInOrder exact value others
        exact ⟨_, value :: parts, by simp, .items row, Nat.succ_le_succ fewer, .cons step steps⟩

theorem readInOrder_of_enclosed (enclosed : Enclosed Eq ']' part parts)
    (fewer : parts.length ≤ fields.length)
    (steps : Steps (Named Takes) state (fields.zip parts) after) (short : part.length ≤ limit)
    (rest : List Char) :
    readInOrder (fields.map reader) state (part ++ rest) = .ok (after, rest) := by
  cases enclosed with
  | @empty blanks blank =>
      rw [List.zip_nil_right] at steps
      obtain _ | _ := steps
      rw [List.append_assoc]
      have close : skipSpace (blanks ++ ']' :: rest) = ']' :: rest :=
        skipSpace_mark rfl blank _
      cases fields with
      | nil => simp [readInOrder, readMoreInOrder, closeArray, close, Except.map]
      | cons field fields => simp [readInOrder, close]
  | items row =>
      have first : ∃ item tail others, part = item ++ tail ∧ parts = item :: others := by
        cases row with
        | last same _ => exact ⟨_, _, _, by rw [same], rfl⟩
        | more same _ _ => exact ⟨_, _, _, by rw [same], rfl⟩
      obtain ⟨item, tail, others, rfl, rfl⟩ := first
      cases fields with
      | nil => exact absurd fewer (Nat.not_succ_le_zero _)
      | cons field fields =>
          obtain _ | ⟨step, steps⟩ := steps
          have step : Takes field _ item _ := step
          rw [List.length_append] at short
          have taken := (exact field).complete (tail ++ rest) step (by omega) (row.endsNumber rest)
          have later := readMoreInOrder_of_row exact row (Nat.le_of_succ_le_succ fewer) steps
            (by omega) rest
          obtain ⟨c, front, shape, noClose⟩ := (exact field).front_append step (tail ++ rest)
          rw [← (exact field).behindSpace, shape] at taken
          rw [List.append_assoc]
          simp [readInOrder, shape, noClose, taken, later, bind, Except.bind]

end Lists

/-! ## Structures -/

section Structures

variable {σ φ : Type} {limit bound : Nat} {member : String → FieldReader σ}
  {reader : φ → FieldReader σ} {TakesMember : String → σ → List Char → σ → Prop}
  {TakesItem : φ → σ → List Char → σ → Prop} {expected : String} {fields : List φ}
  {state after : σ} {part : List Char} {entries : List (String × List Char)}
  {parts : List (List Char)}

/-- The values of some fields change the state, by their names or in their order. -/
def FieldsTaken (fields : List φ) (TakesMember : String → σ → List Char → σ → Prop)
    (TakesItem : φ → σ → List Char → σ → Prop) (state : σ) (text : List Char) (after : σ) : Prop :=
  (∃ entries, ObjectText text entries ∧ Steps (Named TakesMember) state entries after)
    ∨ ∃ parts, ArrayText text parts ∧ parts.length ≤ fields.length
      ∧ Steps (Named TakesItem) state (fields.zip parts) after

/-- An object is read with all its members, whatever the order of the fields is. -/
theorem readFields_of_objectText {inOrder : List (FieldReader σ)}
    (members : ∀ key, Exact limit (member key) (BehindColon (TakesMember key)))
    (object : ObjectText part entries) (steps : Steps (Named TakesMember) state entries after)
    (enough : limit ≤ bound) (short : part.length ≤ limit) (rest : List Char) :
    readFields expected member inOrder bound state (part ++ rest) = .ok (after, rest) := by
  obtain ⟨blanks, inside, blank, rfl, enclosed⟩ := object
  have brace : skipSpace (blanks ++ '\x7b' :: inside ++ rest) = '\x7b' :: (inside ++ rest) :=
    (skipSpace_eq_cons_iff rfl).2 ⟨blanks, blank, by simp⟩
  simp only [List.length_append, List.length_cons] at short
  cases enclosed with
  | @empty more blankMore =>
      obtain _ | _ := steps
      have close : skipSpace (more ++ ['\x7d'] ++ rest) = '\x7d' :: rest :=
        (skipSpace_eq_cons_iff rfl).2 ⟨more, blankMore, by simp⟩
      simp only [readFields, brace, close]
  | items row =>
      obtain ⟨front, quote⟩ := front_of_row row rest
      have read : readByName member bound state (skipSpace (inside ++ rest)) = .ok (after, rest) :=
        readByName_of_row members row steps (by omega) (by omega) rest
      rw [quote] at read
      simp only [readFields, brace, quote]
      exact read

/-- A list is read with all its items, whatever the names of the fields are. -/
theorem readFields_of_arrayText (items : ∀ field, ExactItem limit (reader field) (TakesItem field))
    (array : ArrayText part parts) (fewer : parts.length ≤ fields.length)
    (steps : Steps (Named TakesItem) state (fields.zip parts) after) (short : part.length ≤ limit)
    (rest : List Char) :
    readFields expected member (fields.map reader) bound state (part ++ rest)
      = .ok (after, rest) := by
  obtain ⟨blanks, inside, blank, rfl, enclosed⟩ := array
  have bracket : skipSpace (blanks ++ '[' :: inside ++ rest) = '[' :: (inside ++ rest) :=
    (skipSpace_eq_cons_iff rfl).2 ⟨blanks, blank, by simp⟩
  simp only [List.length_append, List.length_cons] at short
  simp only [readFields, bracket]
  exact readInOrder_of_enclosed items enclosed fewer steps (by omega) rest

theorem exact_readFields (expected : String) (fields : List φ) (enough : limit ≤ bound)
    (members : ∀ key, Exact limit (member key) (BehindColon (TakesMember key)))
    (items : ∀ field, ExactItem limit (reader field) (TakesItem field)) :
    ExactItem limit (readFields expected member (fields.map reader) bound)
      (FieldsTaken fields TakesMember TakesItem) where
  sound := by
    intro state after text rest read
    rw [readFields] at read
    split at read
    next inside bracket =>
      obtain ⟨blanks, blank, rfl⟩ := (skipSpace_eq_cons_iff rfl).1 bracket
      obtain ⟨part, parts, rfl, enclosed, fewer, steps⟩ := enclosed_of_readInOrder items read
      exact ⟨blanks ++ '[' :: part, by simp, .inr ⟨parts, ⟨blanks, part, blank, rfl, enclosed⟩,
        fewer, steps⟩⟩
    next inside brace =>
      obtain ⟨blanks, blank, rfl⟩ := (skipSpace_eq_cons_iff rfl).1 brace
      split at read
      next => cases read
      next close =>
        cases read
        obtain ⟨more, blankMore, rfl⟩ := (skipSpace_eq_cons_iff rfl).1 close
        exact ⟨blanks ++ '\x7b' :: (more ++ ['\x7d']), by simp,
          .inl ⟨[], ⟨blanks, _, blank, rfl, .empty blankMore⟩, .nil⟩⟩
      next =>
        obtain ⟨front, blankFront, whole⟩ := exists_blank_skipSpace inside
        obtain ⟨part, entries, shape, row, steps⟩ := row_of_readByName members read
        rw [shape] at whole
        have behindFront := row.behind fun _ _ keyed => KeyedText.behind blankFront keyed
        exact ⟨blanks ++ '\x7b' :: (front ++ part), by simp [whole],
          .inl ⟨entries, ⟨blanks, _, blank, rfl, .items behindFront⟩, steps⟩⟩
    next => cases read
  complete := by
    rintro state after _ rest (⟨_, object, steps⟩ | ⟨_, array, fewer, steps⟩) short ends
    · exact readFields_of_objectText members object steps enough short rest
    · exact readFields_of_arrayText items array fewer steps short rest
  behindSpace state text := by simp only [readFields, skipSpace_idem]
  front := by
    rintro state after _ (⟨entries, ⟨blanks, inside, blank, rfl, _⟩, _⟩
      | ⟨parts, ⟨blanks, inside, blank, rfl, _⟩, _, _⟩)
    · exact ⟨blanks, '\x7b', inside, blank, rfl, by decide⟩
    · exact ⟨blanks, '[', inside, blank, rfl, by decide⟩

end Structures

end SignedFacts.Json
