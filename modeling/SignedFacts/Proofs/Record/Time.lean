import SignedFacts.Proofs.Json.Gap
import SignedFacts.Proofs.Number.Canonical
import SignedFacts.Proofs.Record.RoundTrip

/-!
# Times that are numbers

A number in place of the time of a document is looked at by its value.  If the value is an
integer of 64 bits without a sign it is the time, and if not the document is refused, however
the number is spelled (`timestampOf_number`).  Besides the time nothing changes
(`parse_exchange`).

The normalised text spells the time as a plain integer, and it is read as the record again
unless a reserved key leads a mapping of the payload (`createdAt_by_value`).
-/

namespace SignedFacts.Record

/-! ## Times -/

theorem timestampOf_error {json : Json} {cause : RecordError}
    (failed : timestampOf json = .error cause) : cause = .invalidTimestamp := by
  cases json with
  | number n =>
      rw [timestampOf] at failed
      split at failed
      next => exact (Except.error.inj failed).symm
      next x _ =>
        split at failed
        next => cases failed
        next => exact (Except.error.inj failed).symm
  | string text =>
      rw [timestampOf] at failed
      split at failed
      next => exact (Except.error.inj failed).symm
      next => cases failed
  | _ => exact (Except.error.inj failed).symm

/-- A number is a time if its value is one. -/
theorem timestampOf_number {n : Numeral} (formed : n.WellFormed)
    (short : n.chars.length ≤ Numeral.safeLength) :
    (∀ k : ℕ, n.value = k → k < 2 ^ 64 →
        timestampOf (.number n) = .ok (.logical (UInt64.ofNat k)))
      ∧ ((¬ ∃ k : ℕ, n.value = k ∧ k < 2 ^ 64) →
        timestampOf (.number n) = .error .invalidTimestamp) := by
  have safe : Value.NumberSafe (.number n) := by
    rintro _ ⟨⟩
    exact ⟨formed, short⟩
  constructor
  · intro k same small
    exact (timestampOf_eq_ok_iff_spells safe).2 (.inl ⟨n, k, rfl, same, small, rfl⟩)
  · intro none
    cases read : timestampOf (.number n) with
    | error cause => rw [timestampOf_error read]
    | ok time =>
        obtain ⟨_, k, same, value, small, _⟩ | ⟨_, same, _⟩ :=
          (timestampOf_eq_ok_iff_spells safe).1 read
        · cases same
          exact absurd ⟨k, value, small⟩ none
        · cases same

/-! ## Another time in a document -/

section Exchange

variable {front back part : List Char} {first last : List (String × Json)} {json : Json}
  {record : Record}

theorem document_exchange {earlier later : List (String × Json)}
    {value payload createdAt signerKey signature : Json}
    (document : Document (earlier ++ ("created_at", value) :: later) payload createdAt signerKey
      signature) (other : Json) :
    Document (earlier ++ ("created_at", other) :: later) payload other signerKey signature := by
  have keeps {key : String} {json : Json} (another : key ≠ "created_at")
      (member : (key, json) ∈ earlier ++ ("created_at", value) :: later) :
      (key, json) ∈ earlier ++ ("created_at", other) :: later := by
    simpa [another] using member
  refine ⟨?_, keeps (by decide) document.payload, by simp [Field.name],
    keeps (by decide) document.signerKey, keeps (by decide) document.signature⟩
  have known := document.known
  simp only [List.forall_mem_append, List.forall_mem_cons] at known ⊢
  exact known

/-- A document with a number in place of its time is read as the same record with the time that
the number is, or it is refused as that number is. -/
theorem parse_exchange (gap : Json.Gap "created_at" front back first last)
    (spelled : Json.Spells part json)
    (parsed : parse (Utf8.octets (front ++ (part ++ back))) = .ok record) {text : List Char}
    {n : Numeral} (number : Json.Spells text (.number n)) :
    parse (Utf8.octets (front ++ (text ++ back)))
      = (timestampOf (.number n)).map fun time => { record with createdAt := time } := by
  obtain ⟨_, _, _, same, guarded, plain, read⟩ := parse_eq_ok_iff.1 parsed
  obtain rfl := Utf8.octets_injective same
  have guardedToo := Json.readGuarded_exchange gap spelled guarded number
  obtain ⟨earlier, value, later, rfl, keys, plainToo⟩ :=
    Json.readPlain_exchange gap spelled rfl plain number
  have distinct : ((earlier ++ ("created_at", value) :: later).map (·.1)).Nodup := by
    obtain ⟨padded, unique, _⟩ := Json.readGuarded_eq_ok_iff.1 guarded
    obtain rfl := Json.spellsPadded_unique padded (gap spelled)
    exact keys ▸ unique.root
  obtain ⟨payload, _, _, _, document, payloadRead, _, rfl, rfl⟩ :=
    (ofJson_eq_ok_iff distinct).1 read
  have documentToo := document_exchange document (.number n)
  rw [← @Json.keys_exchange _ _ _ _ (.number n)] at distinct
  simp only [parse_octets, ofText, guardedToo, plainToo]
  rw [ofJson_of_document ((document_collect_iff distinct).2 documentToo),
    payloadOf_eq_ok_iff.2 payloadRead]
  cases timestampOf (.number n) <;> rfl

/-- The record with the reading of a counter for its time. -/
def timed (record : Record) (k : ℕ) : Record :=
  { record with createdAt := .logical (UInt64.ofNat k) }

/-- The normalised text begins with the time, in plain digits. -/
theorem exists_chars_timed {k : ℕ} (small : k < 2 ^ 64) :
    ∃ behind, (record.timed k).chars
      = "\x7b\"created_at\":".toList ++ (toString k).toList ++ ',' :: behind := by
  have time : (UInt64.ofNat k).toNat = k := UInt64.toNat_ofNat_of_lt' small
  have digits : (Decimal.ofInt k).chars = (toString k).toList := by
    rw [Decimal.chars_ofInt, if_neg (by omega), Int.natAbs_natCast, Nat.toString_eq_repr,
      Nat.toList_repr]
    rfl
  have quoted : "\x7b\"created_at\":".toList = '\x7b' :: (Text.quoted "created_at" ++ [':']) := by
    decide
  simp only [chars, toValue, timed, Timestamp.toValue, time, Value.chars, digits,
    Value.membersChars, quoted, List.cons_append, List.append_assoc, List.nil_append,
    List.cons.injEq, true_and, List.append_cancel_left_eq, exists_eq']

/-- The time is read back unless a reserved key leads a mapping of the payload. -/
theorem parse_timed_iff {document : List UInt8} (parsed : parse document = .ok record) (k : ℕ) :
    parse (Utf8.octets (record.timed k).chars) = .ok (record.timed k)
      ↔ ∀ node ∈ record.payload.toValue.nodes 2, ¬ node.2.LeadsReserved := by
  rw [parse_chars_iff, and_iff_right nofun]
  exact and_iff_right (sound_of_parse parsed).2

/-- With a number of less than 2²⁸ octets for its time, a document without other faults is
accepted exactly if the value of the number is an integer of 64 bits without a sign.  This is
the time then, and the normalised text spells it in plain digits.  In the same way a decimal
number is read as a machine integer exactly if its value is one in the range. -/
theorem createdAt_by_value (gap : Json.Gap "created_at" front back first last)
    (spelled : Json.Spells part json)
    (parsed : parse (Utf8.octets (front ++ (part ++ back))) = .ok record) {text : List Char}
    {n : Numeral} (number : Json.SpellsNumber text n) (short : (Utf8.octets text).length < 2 ^ 28) :
    (∀ k : ℕ, n.value = k → k < 2 ^ 64 →
        parse (Utf8.octets (front ++ (text ++ back))) = .ok (record.timed k)
        ∧ (∃ behind, (record.timed k).chars
          = "\x7b\"created_at\":".toList ++ (toString k).toList ++ ',' :: behind)
        ∧ (parse (Utf8.octets (record.timed k).chars) = .ok (record.timed k)
          ↔ ∀ node ∈ record.payload.toValue.nodes 2, ¬ node.2.LeadsReserved))
      ∧ ((¬ ∃ k : ℕ, n.value = k ∧ k < 2 ^ 64) →
        parse (Utf8.octets (front ++ (text ++ back))) = .error .invalidTimestamp)
      ∧ ∀ x : Decimal,
        (∀ k : ℕ, x.toUnsigned? = some k ↔ x.value = k ∧ k < 2 ^ 64)
        ∧ (∀ k : ℤ, x.toSigned? = some k ↔ x.value = k ∧ -2 ^ 63 ≤ k ∧ k < 2 ^ 63)
        ∧ (x.isInteger = true ↔ ∃ k : ℤ, x.value = k) := by
  have formed := Numeral.wellFormed_explicit number.1.1
  have within : n.explicit.chars.length ≤ Numeral.safeLength := by
    have length := Numeral.length_of_spells number.1
    have octets := Utf8.length_le_length_octets text
    have signed := n.length_explicit_le
    have bound : Numeral.safeLength = 2 ^ 28 := rfl
    omega
  obtain ⟨isTime, isNone⟩ := timestampOf_number formed within
  rw [n.value_explicit] at isTime isNone
  have exchanged := parse_exchange gap spelled parsed (.number number)
  refine ⟨fun k same small => ⟨?_, exists_chars_timed small, parse_timed_iff parsed k⟩, ?_, ?_⟩
  · rw [exchanged, isTime k same small]
    rfl
  · intro none
    rw [exchanged, isNone none]
    rfl
  · intro x
    exact ⟨fun k => Decimal.toUnsigned?_eq_some_iff, fun k => Decimal.toSigned?_eq_some_iff,
      x.isInteger_iff.trans x.exists_value_eq_int_iff.symm⟩

end Exchange

/-! ## Tenths for a label -/

/-- The numeral of a number of tenths. -/
def tenths (digits : List Char) : Numeral := ⟨false, digits, none, some ⟨.minus, ['1']⟩⟩

theorem spellsNumber_tenths {digits : List Char} (isDigits : Numeral.IsDigits digits)
    (head : digits.head? ≠ some '0') :
    Json.SpellsNumber (digits ++ ['e', '-', '1']) (tenths digits) := by
  have one : Numeral.IsDigits ['1'] := ⟨by decide, by simp⟩
  refine ⟨⟨⟨isDigits, by simp [tenths], ?_⟩, 'e', rfl, ?_⟩, .inr head⟩
  · rintro _ ⟨⟩
    exact one
  · simp [tenths, Numeral.charsWith, Numeral.signChars, Numeral.fractionChars,
      Numeral.markedChars, ExponentSign.chars]

theorem value_tenths {digits : List Char} {size : ℕ} (read : Nat.ofDigitChars 10 digits 0 = size) :
    (tenths digits).value = size / 10 := by
  have power : (tenths digits).exactPower = -1 := rfl
  have places : (tenths digits).places = 0 := rfl
  have units : (tenths digits).units = size := by
    simp [tenths, Numeral.units, Numeral.size, Numeral.allDigits, read]
  rw [Numeral.value, power, places, units]
  simp [div_eq_mul_inv]

/-- A record with a label for its time. -/
def labelled : Record := ⟨⟨[("a", .bool true)], by decide⟩, .label "t", ⟨"k"⟩, ⟨"s"⟩⟩

theorem parse_labelled : parse (Utf8.octets labelled.chars) = .ok labelled :=
  parse_chars (by decide) (by decide) (by decide)

/-- In place of the label, `150e-1` is fifteen, and `15e-1` is refused. -/
theorem createdAt_by_value_labelled :
    ∃ front back,
      parse (Utf8.octets (front ++ (['1', '5', '0', 'e', '-', '1'] ++ back)))
          = .ok (labelled.timed 15)
        ∧ parse (Utf8.octets (front ++ (['1', '5', 'e', '-', '1'] ++ back)))
          = .error .invalidTimestamp := by
  have padded := Value.padded labelled.toValue.spells_chars
  rw [toJson_toValue] at padded
  obtain ⟨front, part, back, first, last, gap, _, shape, spelled⟩ :=
    Json.exists_gap padded labelled.document_trees.createdAt
  have parsed := parse_labelled
  rw [chars, shape] at parsed
  have accepted : Json.SpellsNumber ['1', '5', '0', 'e', '-', '1'] (tenths ['1', '5', '0']) :=
    spellsNumber_tenths ⟨by decide, by simp⟩ (by decide)
  have refused : Json.SpellsNumber ['1', '5', 'e', '-', '1'] (tenths ['1', '5']) :=
    spellsNumber_tenths ⟨by decide, by simp⟩ (by decide)
  have fifteen : (tenths ['1', '5', '0']).value = (15 : ℕ) := by
    rw [value_tenths (by decide : _ = 150)]
    norm_num
  have none : ¬ ∃ k : ℕ, (tenths ['1', '5']).value = k ∧ k < 2 ^ 64 := by
    rintro ⟨k, same, _⟩
    rw [value_tenths (by decide : _ = 15), div_eq_iff (by norm_num)] at same
    have : 15 = k * 10 := by exact_mod_cast same
    omega
  exact ⟨front, back,
    ((createdAt_by_value gap spelled parsed accepted (by decide)).1 15 fifteen (by decide)).1,
    (createdAt_by_value gap spelled parsed refused (by decide)).2.1 none⟩

/-! ## A time that is not read back -/

/-- A document with a counter reading and with a reserved key behind another one. -/
def keyedDocument : String :=
  "\x7b\"payload\":\x7b\"a\":true,\"$serde_json::private::Number\":\"5\"\x7d,\"created_at\":7,"
    ++ "\"signer_public_key\":\"k\",\"signature\":\"s\"\x7d"

/-- The record of this document.  Its payload begins with the reserved key. -/
def keyedRecord : Record :=
  ⟨⟨[(Json.numberKey, .string "5"), ("a", .bool true)], by decide⟩, .logical 7, ⟨"k"⟩, ⟨"s"⟩⟩

theorem parse_keyedDocument : parse (Utf8.encode keyedDocument) = .ok keyedRecord := by
  decide +kernel

/-- The time of an accepted document need not be read back from its normalised text. -/
theorem createdAt_not_read_back :
    parse (Utf8.encode keyedDocument) = .ok keyedRecord ∧ keyedRecord.createdAt = .logical 7
      ∧ ∀ record, parse (Utf8.octets keyedRecord.chars) ≠ .ok record := by
  refine ⟨parse_keyedDocument, rfl, fun record again => ?_⟩
  exact absurd (frontPlain_of_parse parse_keyedDocument again).root (by decide)

end SignedFacts.Record
