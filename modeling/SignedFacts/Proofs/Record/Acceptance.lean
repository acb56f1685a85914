import SignedFacts.Proofs.Octets.Utf8
import SignedFacts.Proofs.Record.Document

/-!
# Which documents are records

What a document must be for `Record.parse` to accept it, said of the tree that
it spells, and what the record is then.  The reserved keys are left aside.  For
trees without them both readings of a document give the tree itself, and the
rest is a matter of the fields (`Record.exists_ofJson_iff`).
-/

namespace SignedFacts.Record

/-! ## What the fields must be -/

/-- A payload is an object without a level past the limit, and each of its
numbers, as the reader hands it on, is the text of a decimal number.

The reader writes a plus sign before an exponent that has no sign.  The text that
is looked at is then one character longer than the one in the document, and a
fixed form may be one character longer too.  So `1e1030` is accepted in a payload,
as `1e+1030`, although `Decimal.parse` refuses `1e1030`. -/
def AcceptsPayload (json : Json) : Prop :=
  (∃ members, json = .object members)
    ∧ json.Everywhere (fun level node => level ≤ maxDepth
      ∧ ∀ n, node = .number n → ∃ x, Decimal.parse (String.ofList n.chars) = .ok x) 2

example : Decimal.parse "1e+1030" = .ok (.ofInt (10 ^ 1030))
    ∧ Decimal.parse "1e1030" = .error (.tooLong "1e1030") := by
  decide +kernel

/-- A time is an integer of 64 bits without a sign, or a string that is not
empty. -/
def AcceptsTime (json : Json) : Prop :=
  (∃ (n : Numeral) (k : Nat), json = .number n ∧ n.value = k ∧ k < 2 ^ 64)
    ∨ ∃ text, json = .string text ∧ text ≠ ""

/-- A tree is an object with the fields of a record and no others. -/
def Accepts (json : Json) : Prop :=
  ∃ members payload createdAt signerKey signature, json = .object members
    ∧ Document members payload createdAt signerKey signature
    ∧ AcceptsPayload payload ∧ AcceptsTime createdAt
    ∧ (∃ text, signerKey = .string text) ∧ ∃ text, signature = .string text

/-- A tree spells a time. -/
def SpellsTime (json : Json) (time : Timestamp) : Prop :=
  (∃ (n : Numeral) (k : Nat), json = .number n ∧ n.value = k ∧ k < 2 ^ 64
      ∧ time = .logical (UInt64.ofNat k))
    ∨ ∃ text, json = .string text ∧ text ≠ "" ∧ time = .label text

/-- The fields of a tree spell the parts of a record. -/
def Spells (json : Json) (record : Record) : Prop :=
  ∃ members payload createdAt signerKey signature, json = .object members
    ∧ Document members payload createdAt signerKey signature
    ∧ Value.Denotes payload record.payload.toValue ∧ SpellsTime createdAt record.createdAt
    ∧ signerKey = .string record.signerKey.text ∧ signature = .string record.signature.text

/-! ## The two readings -/

theorem parse_octets (text : List Char) : parse (Utf8.octets text) = ofText .last text := by
  rw [parse, parseKeeping, Utf8.decode_octets]

/-- A document is read in three steps: characters, two trees, a record. -/
theorem parseKeeping_eq_ok_iff {keep : Sorted.Occurrence} {document : List UInt8}
    {record : Record} :
    parseKeeping keep document = .ok record
      ↔ ∃ text guarded json, document = Utf8.octets text ∧ Json.readGuarded text = .ok guarded
        ∧ Json.readPlain text = .ok json ∧ ofJson keep json = .ok record := by
  rw [parseKeeping]
  constructor
  · intro read
    split at read
    next => cases read
    next text decoded =>
      rw [ofText] at read
      split at read
      next => cases read
      next guarded first =>
        split at read
        next => cases read
        next json second =>
          exact ⟨text, guarded, json, Utf8.decode_eq_ok_iff.1 decoded, first, second, read⟩
  · rintro ⟨text, guarded, json, rfl, first, second, read⟩
    simp [Utf8.decode_octets, ofText, first, second, read]

theorem parse_eq_ok_iff {document : List UInt8} {record : Record} :
    parse document = .ok record
      ↔ ∃ text guarded json, document = Utf8.octets text ∧ Json.readGuarded text = .ok guarded
        ∧ Json.readPlain text = .ok json ∧ ofJson .last json = .ok record :=
  parseKeeping_eq_ok_iff

/-! ## Fields of a tree -/

theorem exists_payload_iff {json : Json}
    (distinct : json.Everywhere (fun _ node => node.KeysDistinct) 2)
    (safe : json.Everywhere (fun _ node => Value.NumberSafe node) 2) :
    (∃ payload : Payload, Value.ofJson .last maxDepth 2 json = .ok payload.toValue)
      ↔ AcceptsPayload json := by
  have convertible : json.Everywhere (Value.Convertible maxDepth) 2
      ↔ json.Everywhere (fun level node => level ≤ maxDepth
        ∧ ∀ n, node = .number n → ∃ x, Decimal.parse (String.ofList n.chars) = .ok x) 2 := by
    refine forall₂_congr fun node member => and_congr_right fun _ => ?_
    refine forall₂_congr fun n same => ?_
    rw [Decimal.parse_chars (safe node member n same).1]
  rw [AcceptsPayload, ← convertible, ← Value.exists_ofJson_iff distinct]
  constructor
  · rintro ⟨payload, converted⟩
    exact ⟨Value.object_of_ofJson converted, payload.toValue, converted⟩
  · rintro ⟨⟨members, rfl⟩, value, converted⟩
    obtain ⟨_, entries, rfl, _⟩ := Value.ofJson_object_eq_ok_iff.1 converted
    exact ⟨⟨entries, Value.isOrdered_of_ofJson _ converted⟩, converted⟩

theorem timestampOf_eq_ok_iff_spells {json : Json} {time : Timestamp}
    (safe : Value.NumberSafe json) : timestampOf json = .ok time ↔ SpellsTime json time := by
  rw [timestampOf_eq_ok_iff, SpellsTime]
  refine or_congr_left ?_
  constructor
  · rintro ⟨n, x, k, rfl, read, unsigned, rfl⟩
    obtain ⟨formed, short⟩ := safe n rfl
    obtain ⟨same, small⟩ := (Decimal.unsigned_iff formed short).1 ⟨x, read, unsigned⟩
    exact ⟨n, k, rfl, same, small, rfl⟩
  · rintro ⟨n, k, rfl, same, small, rfl⟩
    obtain ⟨formed, short⟩ := safe n rfl
    obtain ⟨x, read, unsigned⟩ := (Decimal.unsigned_iff formed short).2 ⟨same, small⟩
    exact ⟨n, x, k, rfl, read, unsigned, rfl⟩

theorem exists_spellsTime_iff {json : Json} :
    (∃ time, SpellsTime json time) ↔ AcceptsTime json := by
  constructor
  · rintro ⟨time, ⟨n, k, same, value, small, _⟩ | ⟨text, same, filled, _⟩⟩
    · exact .inl ⟨n, k, same, value, small⟩
    · exact .inr ⟨text, same, filled⟩
  · rintro (⟨n, k, same, value, small⟩ | ⟨text, same, filled⟩)
    · exact ⟨_, .inl ⟨n, k, same, value, small, rfl⟩⟩
    · exact ⟨_, .inr ⟨text, same, filled, rfl⟩⟩

/-! ## Trees -/

section Trees

variable {json : Json} (distinct : json.UniqueKeys)
  (safe : json.Everywhere (fun _ node => Value.NumberSafe node) 1)

include distinct safe

/-- A tree without repeated keys gives a record exactly if it has the fields of
one. -/
theorem exists_ofJson_iff : (∃ record, ofJson .last json = .ok record) ↔ Accepts json := by
  constructor
  · rintro ⟨record, read⟩
    cases json with
    | object members =>
        obtain ⟨keys, distinct⟩ := Json.everywhere_object.1 distinct
        obtain ⟨_, safe⟩ := Json.everywhere_object.1 safe
        obtain ⟨payload, createdAt, signerKey, signature, fields, converted, time, rfl, rfl⟩ :=
          (ofJson_eq_ok_iff keys).1 read
        refine ⟨members, payload, createdAt, _, _, rfl, fields, ?_, ?_, ⟨_, rfl⟩, ⟨_, rfl⟩⟩
        · exact (exists_payload_iff (distinct _ fields.payload) (safe _ fields.payload)).1
            ⟨record.payload, converted⟩
        · exact exists_spellsTime_iff.1
            ⟨_, (timestampOf_eq_ok_iff_spells (safe _ fields.createdAt).root).1 time⟩
    | _ => cases read
  · rintro ⟨members, payload, createdAt, _, _, rfl, fields, accepted, time, ⟨keyText, rfl⟩,
      ⟨signatureText, rfl⟩⟩
    obtain ⟨keys, distinct⟩ := Json.everywhere_object.1 distinct
    obtain ⟨_, safe⟩ := Json.everywhere_object.1 safe
    obtain ⟨value, converted⟩ :=
      (exists_payload_iff (distinct _ fields.payload) (safe _ fields.payload)).2 accepted
    obtain ⟨stamp, spelled⟩ := exists_spellsTime_iff.2 time
    have read := (timestampOf_eq_ok_iff_spells (safe _ fields.createdAt).root).2 spelled
    exact ⟨⟨value, stamp, ⟨keyText⟩, ⟨signatureText⟩⟩,
      (ofJson_eq_ok_iff keys).2 ⟨payload, createdAt, _, _, fields, converted, read, rfl, rfl⟩⟩

/-- The fields of the tree spell the record. -/
theorem spells_of_ofJson {record : Record} (read : ofJson .last json = .ok record) :
    Spells json record := by
  cases json with
  | object members =>
      obtain ⟨keys, distinct⟩ := Json.everywhere_object.1 distinct
      obtain ⟨_, safe⟩ := Json.everywhere_object.1 safe
      obtain ⟨payload, createdAt, signerKey, signature, fields, converted, time, rfl, rfl⟩ :=
        (ofJson_eq_ok_iff keys).1 read
      refine ⟨members, payload, createdAt, _, _, rfl, fields, ?_, ?_, rfl, rfl⟩
      · exact Value.denotes_of_ofJson (distinct _ fields.payload) (safe _ fields.payload) converted
      · exact (timestampOf_eq_ok_iff_spells (safe _ fields.createdAt).root).1 time
  | _ => cases read

end Trees

/-! ## Documents -/

/-- The numbers in a document shorter than 2²⁸ octets are safe. -/
theorem safe_of_short {text : List Char} {json : Json} (padded : Json.SpellsPadded text json)
    (short : (Utf8.octets text).length < 2 ^ 28) {level : Nat} :
    json.Everywhere (fun _ node => Value.NumberSafe node) level := by
  have length := Utf8.length_le_length_octets text
  have bound : Numeral.safeLength = 2 ^ 28 - 1 + 1 := rfl
  simpa only [Value.NumberSafe, bound] using
    Json.number_of_spellsPadded padded (show text.length ≤ 2 ^ 28 - 1 by omega)

/-- A document spells one tree at most, so it is enough to look at one. -/
theorem avoidsReserved_of_spells {text : List Char} {json : Json}
    (padded : Json.SpellsPadded text json) (plain : json.AvoidsReserved) (other : List Char)
    (tree : Json) (same : Utf8.octets text = Utf8.octets other)
    (spelled : Json.SpellsPadded other tree) : tree.AvoidsReserved := by
  obtain rfl := Utf8.octets_injective same
  exact Json.spellsPadded_unique padded spelled ▸ plain

/-- A document without reserved keys is a record exactly if its text spells a
tree with the fields of a record, without repeated keys and with fewer than 128
containers inside each other.  The fields of that tree spell the record. -/
theorem parse_exact (document : List UInt8) (short : document.length < 2 ^ 28)
    (plain : ∀ text json, document = Utf8.octets text → Json.SpellsPadded text json →
      json.AvoidsReserved) :
    ((∃ record, parse document = .ok record)
      ↔ ∃ text json, document = Utf8.octets text ∧ Json.SpellsPadded text json
        ∧ json.NestsWithin 127 ∧ json.UniqueKeys ∧ Accepts json)
    ∧ ∀ record text json, parse document = .ok record → document = Utf8.octets text →
      Json.SpellsPadded text json → Spells json record := by
  -- Without reserved keys both readers give one tree, and it is enough to speak of
  -- the first.
  have read {record : Record} : parse document = .ok record
      ↔ ∃ text json, document = Utf8.octets text ∧ Json.readGuarded text = .ok json
        ∧ ofJson .last json = .ok record := by
    rw [parse_eq_ok_iff]
    constructor
    · rintro ⟨text, guarded, json, rfl, first, second, read⟩
      have padded := (Json.readGuarded_eq_ok_iff.1 first).1
      rw [Json.readPlain_of_readGuarded first (plain text guarded rfl padded)] at second
      cases second
      exact ⟨text, guarded, rfl, first, read⟩
    · rintro ⟨text, json, rfl, first, read⟩
      have padded := (Json.readGuarded_eq_ok_iff.1 first).1
      exact ⟨text, json, json, rfl, first,
        Json.readPlain_of_readGuarded first (plain text json rfl padded), read⟩
  refine ⟨⟨?_, ?_⟩, ?_⟩
  · rintro ⟨record, parsed⟩
    obtain ⟨text, json, rfl, guarded, converted⟩ := read.1 parsed
    obtain ⟨padded, unique, nests⟩ := Json.readGuarded_eq_ok_iff.1 guarded
    exact ⟨text, json, rfl, padded, nests, unique,
      (exists_ofJson_iff unique (safe_of_short padded short)).1 ⟨record, converted⟩⟩
  · rintro ⟨text, json, rfl, padded, nests, unique, accepted⟩
    obtain ⟨record, converted⟩ :=
      (exists_ofJson_iff unique (safe_of_short padded short)).2 accepted
    exact ⟨record, read.2 ⟨text, json, rfl,
      Json.readGuarded_eq_ok_iff.2 ⟨padded, unique, nests⟩, converted⟩⟩
  · rintro record text json parsed rfl padded
    obtain ⟨other, guarded, same, first, converted⟩ := read.1 parsed
    obtain rfl := Utf8.octets_injective same
    obtain ⟨paddedToo, unique, _⟩ := Json.readGuarded_eq_ok_iff.1 first
    obtain rfl := Json.spellsPadded_unique padded paddedToo
    exact spells_of_ofJson unique (safe_of_short padded short) converted

/-! ## Exponents at the limit -/

/-- A document with a power of ten inside a list, and with a time that has an
exponent. -/
def nestedDocument (exponent : String) : String :=
  "\x7b\"payload\":\x7b\"a\":[1e" ++ exponent ++ ",\x7b\"b\":-0.5e-3\x7d,\"c\"]\x7d,"
    ++ "\"created_at\":1.5e1,\"signer_public_key\":\"k\",\"signature\":\"s\"\x7d"

/-- The tree that it spells. -/
def nestedTree (exponent : String) : Json :=
  .object [
    ("payload", .object [("a", .array [
      .number ⟨false, ['1'], none, some ⟨.plus, exponent.toList⟩⟩,
      .object [("b", .number ⟨true, ['0'], some ['5'], some ⟨.minus, ['3']⟩⟩)],
      .string "c"])]),
    ("created_at", .number ⟨false, ['1'], some ['5'], some ⟨.plus, ['1']⟩⟩),
    ("signer_public_key", .string "k"), ("signature", .string "s")]

/-- The largest exponent that is accepted there, and the next. -/
def nestedExponents : List String := ["1030", "1031"]

theorem spells_nestedDocument : ∀ exponent ∈ nestedExponents,
    Json.SpellsPadded (nestedDocument exponent).toList (nestedTree exponent)
      ∧ (nestedTree exponent).UniqueKeys ∧ (nestedTree exponent).NestsWithin 127 := by
  have found : ∀ exponent ∈ nestedExponents,
      (Json.readGuarded (nestedDocument exponent).toList).toOption
        = some (nestedTree exponent) := by
    decide +kernel
  exact fun exponent member => Json.spells_of_found (found exponent member)

theorem short_nestedDocument : ∀ exponent ∈ nestedExponents,
    (Utf8.encode (nestedDocument exponent)).length < 2 ^ 28 := by
  decide +kernel

/-- Of the two trees the first has the fields of a record. -/
theorem accepts_nestedTree : ∀ exponent ∈ nestedExponents,
    Accepts (nestedTree exponent) ↔ exponent = "1030" := by
  have converted : ∀ exponent ∈ nestedExponents,
      (ofJson .last (nestedTree exponent)).toOption.isSome = true ↔ exponent = "1030" := by
    decide +kernel
  intro exponent member
  obtain ⟨padded, unique, _⟩ := spells_nestedDocument exponent member
  rw [← converted exponent member, Option.isSome_iff_exists,
    ← exists_ofJson_iff unique (safe_of_short padded (short_nestedDocument exponent member))]
  simp only [Json.toOption_eq_some_iff]

theorem parse_exact_nestedDocument :
    (∃ record, parse (Utf8.encode (nestedDocument "1030")) = .ok record
        ∧ Spells (nestedTree "1030") record)
      ∧ ¬ ∃ record, parse (Utf8.encode (nestedDocument "1031")) = .ok record := by
  have both : "1030" ∈ nestedExponents ∧ "1031" ∈ nestedExponents := by decide
  constructor
  · obtain ⟨padded, unique, nests⟩ := spells_nestedDocument _ both.1
    obtain ⟨accepted, spelled⟩ := parse_exact _ (short_nestedDocument _ both.1)
      (avoidsReserved_of_spells padded (by decide))
    obtain ⟨record, parsed⟩ := accepted.2
      ⟨_, _, rfl, padded, nests, unique, (accepts_nestedTree _ both.1).2 rfl⟩
    exact ⟨record, parsed, spelled _ _ _ parsed rfl padded⟩
  · obtain ⟨padded, _⟩ := spells_nestedDocument _ both.2
    obtain ⟨accepted, _⟩ := parse_exact _ (short_nestedDocument _ both.2)
      (avoidsReserved_of_spells padded (by decide))
    intro parsed
    obtain ⟨text, json, same, spelled, _, _, accepts⟩ := accepted.1 parsed
    obtain rfl := Utf8.octets_injective same
    obtain rfl := Json.spellsPadded_unique padded spelled
    exact absurd ((accepts_nestedTree _ both.2).1 accepts) (by decide)

end SignedFacts.Record
