import SignedFacts.Engine.Tokens
import SignedFacts.Proofs.Engine.Normalise

/-!
# Text that goes out

A text that goes out ends at its first zero, and a text with a zero in it does not
go out at all.  No text of this library has one.  Every text that is written as a
value is free of controls (`Value.plain_chars`): digits and signs are plain, and the
controls in strings and keys are escaped.  So a normalised text goes out whole, an
error does, whatever its detail quotes, and one look at the keys tells which of the
two came (`Tokens.processJson_whole`).
-/

namespace SignedFacts

/-! ## Text without controls -/

namespace Text

/-- No character is a control below the space. -/
def Plain (text : List Char) : Prop := ∀ c ∈ text, 0x20 ≤ c.toNat

instance (text : List Char) : Decidable (Plain text) := List.decidableBAll _ text

variable {c : Char} {text rest : List Char}

@[simp] theorem plain_cons : Plain (c :: text) ↔ 0x20 ≤ c.toNat ∧ Plain text :=
  List.forall_mem_cons

@[simp] theorem plain_append : Plain (text ++ rest) ↔ Plain text ∧ Plain rest :=
  List.forall_mem_append

/-- A control is escaped, and what escapes it is plain. -/
theorem plain_quotedChar (c : Char) : Plain (quotedChar c) := by
  have halves : ∀ code < 0x20, Plain (Hex.octetDigits (UInt8.ofNat code)) := by decide
  rw [quotedChar]
  split_ifs with quote backslash back form line carriage tab control
  iterate 7 decide
  · simp only [plain_cons]
    exact ⟨by decide, by decide, by decide, by decide, halves _ control⟩
  · exact plain_cons.2 ⟨Nat.le_of_not_lt control, List.forall_mem_nil _⟩

theorem plain_quoted (text : String) : Plain (quoted text) := by
  have inner : Plain (text.toList.flatMap quotedChar) := fun c member => by
    obtain ⟨source, _, inside⟩ := List.mem_flatMap.1 member
    exact plain_quotedChar source c inside
  simp only [quoted, List.cons_append, plain_cons, plain_append]
  exact ⟨by decide, inner, by decide⟩

/-- The octets of a plain text are no controls either. -/
theorem le_of_mem_octets (plain : Plain text) : ∀ octet ∈ Utf8.octets text, 0x20 ≤ octet.toNat := by
  intro octet member
  obtain ⟨c, among, inside⟩ := List.mem_flatMap.1 member
  have above := plain c among
  by_cases small : c.toNat < 0x80
  · rw [Utf8.charOctets, if_pos small, List.mem_singleton] at inside
    rw [inside, UInt8.toNat_ofNat']
    omega
  · exact le_trans (by decide) (Utf8.large_of_mem_charOctets (Nat.le_of_not_lt small) octet inside)

end Text

theorem Decimal.plain_chars (x : Decimal) : Text.Plain x.chars := by
  have spelled := Numeral.spells_chars x.wellFormed_numeral
  rw [x.chars_numeral] at spelled
  exact fun c member => (Numeral.visible_of_spells spelled c member).1.le

namespace Value

mutual

/-- The canonical text of a value is plain, whatever its strings and keys are. -/
theorem plain_chars : ∀ value : Value, Text.Plain value.chars
  | .null => by decide
  | .bool true => by decide
  | .bool false => by decide
  | .number x => x.plain_chars
  | .string text => Text.plain_quoted text
  | .sequence [] => by decide
  | .sequence (item :: rest) => by
      simp only [chars, List.cons_append, Text.plain_cons, Text.plain_append]
      exact ⟨by decide, plain_chars item, plain_itemsChars rest⟩
  | .mapping [] => by decide
  | .mapping ((key, value) :: rest) => by
      simp only [chars, List.cons_append, Text.plain_cons, Text.plain_append]
      exact ⟨by decide, ⟨Text.plain_quoted key, by decide, plain_chars value⟩,
        plain_membersChars rest⟩

theorem plain_itemsChars : ∀ items : List Value, Text.Plain (itemsChars items)
  | [] => by decide
  | item :: rest => by
      simp only [itemsChars, List.cons_append, Text.plain_cons, Text.plain_append]
      exact ⟨by decide, plain_chars item, plain_itemsChars rest⟩

theorem plain_membersChars :
    ∀ members : List (String × Value), Text.Plain (membersChars members)
  | [] => by decide
  | (key, value) :: rest => by
      simp only [membersChars, List.cons_append, Text.plain_cons, Text.plain_append]
      exact ⟨by decide, ⟨Text.plain_quoted key, by decide, plain_chars value⟩,
        plain_membersChars rest⟩

end

end Value

/-! ## What goes out -/

namespace Tokens

theorem ne_zero_of_plain {text : List Char} (plain : Text.Plain text) :
    ∀ octet ∈ Utf8.octets text, octet ≠ 0 := by
  rintro octet member rfl
  exact absurd (Text.le_of_mem_octets plain _ member) (by decide)

theorem textOut_of_plain {text : List Char} (plain : Text.Plain text) : textOut text = text := by
  rw [textOut, if_neg]
  exact fun zero => ne_zero_of_plain plain _ (List.contains_iff_mem.1 zero) rfl

/-- What is read up to the zero behind a plain text is the text. -/
theorem upToZero_of_plain {text : List Char} (plain : Text.Plain text) (behind : List UInt8) :
    upToZero (Utf8.octets text ++ 0 :: behind) = Utf8.octets text := by
  rw [upToZero, List.takeWhile_append_of_pos fun octet member =>
    decide_eq_true (ne_zero_of_plain plain octet member)]
  simp

/-- The text of a result: the normalised text, or the error as JSON text. -/
def answer : Except EngineError (List Char) → List Char
  | .ok text => text
  | .error error => error.toValue.chars

theorem exists_answer_eq (document : List UInt8) :
    ∃ value : Value, answer (normalise document) = value.chars := by
  cases result : normalise document with
  | ok text =>
      obtain ⟨record, _, written⟩ := normalise_eq_ok_iff.1 result
      exact ⟨record.toValue, written.symm⟩
  | error error => exact ⟨error.toValue, rfl⟩

theorem plain_answer (document : List UInt8) : Text.Plain (answer (normalise document)) := by
  obtain ⟨value, written⟩ := exists_answer_eq document
  exact written ▸ value.plain_chars

theorem processJson_eq_answer (document : List UInt8) :
    processJson (some document) = answer (normalise document) := by
  have plain := plain_answer document
  rw [processJson]
  cases result : normalise document <;>
    exact textOut_of_plain (by rwa [result] at plain)

/-- A record has no member for an error, and an error is one. -/
theorem spells_answer (document : List UInt8) :
    ∃ members, Json.Spells (answer (normalise document)) (.object members)
      ∧ ("error" ∈ members.map (·.1) ↔ ∃ error, normalise document = .error error) := by
  cases result : normalise document with
  | ok text =>
      obtain ⟨record, _, rfl⟩ := normalise_eq_ok_iff.1 result
      refine ⟨_, record.toValue.spells_chars, iff_of_false ?_ nofun⟩
      simp [Value.membersToJson]
  | error error =>
      exact ⟨_, error.toValue.spells_chars, iff_of_true (.head _) ⟨error, rfl⟩⟩

/-- For every document the normalised text goes out, or else the error.  It is UTF-8 without
a control, a caller who reads up to the zero behind it has all of it, and it is a JSON object
that has a member `error` exactly if the document could not be processed. -/
theorem processJson_whole (document behind : List UInt8) :
    processJson (some document) = answer (normalise document)
      ∧ Utf8.decode (Utf8.octets (answer (normalise document))) = .ok (answer (normalise document))
      ∧ (∀ octet ∈ Utf8.octets (answer (normalise document)), 0x20 ≤ octet.toNat)
      ∧ upToZero (Utf8.octets (processJson (some document)) ++ 0 :: behind)
        = Utf8.octets (answer (normalise document))
      ∧ ∃ members, Json.Spells (processJson (some document)) (.object members)
        ∧ ("error" ∈ members.map (·.1) ↔ ∃ error, normalise document = .error error) := by
  have plain := plain_answer document
  rw [processJson_eq_answer]
  exact ⟨rfl, Utf8.decode_octets _, Text.le_of_mem_octets plain, upToZero_of_plain plain behind,
    spells_answer document⟩

end Tokens

end SignedFacts
