import SignedFacts.Proofs.Record.Acceptance
import SignedFacts.Proofs.Record.Canonical

/-!
# Reading canonical texts of records

The canonical text of a record is read as the record again, with three
exceptions: a time that is the empty label, a payload with too many levels, and
a reserved key that leads its mapping (`parse_chars_iff`).  No document is read
as a record of the first two kinds (`sound_of_parse`), and the text of one of the
third kind is refused (`frontPlain_of_parse`).
-/

namespace SignedFacts.Record

/-! ## The tree of a record -/

theorem isOrdered_payload (record : Record) : record.payload.toValue.isOrdered = true :=
  record.payload.ordered

theorem isOrdered_toValue (record : Record) : record.toValue.isOrdered = true := by
  have time : record.createdAt.toValue.isOrdered = true := by cases record.createdAt <;> rfl
  have keys : ["created_at", "id", "payload", "signature", "signer_public_key"].Pairwise
      fun x y => compare x y = .lt := by decide
  refine Value.ordered_mapping_iff.2 ⟨Sorted.ascending_iff_keys.2 keys, ?_⟩
  simp [time, record.isOrdered_payload, Value.isOrdered]

/-- The members of the tree of a record. -/
def trees (record : Record) : List (String × Json) :=
  [("created_at", record.createdAt.toValue.toJson), ("id", .string record.id.toHex),
    ("payload", record.payload.toValue.toJson), ("signature", .string record.signature.text),
    ("signer_public_key", .string record.signerKey.text)]

theorem toJson_toValue (record : Record) : record.toValue.toJson = .object record.trees := rfl

theorem scalar_toJson (time : Timestamp) : time.toValue.toJson.isContainer = false := by
  cases time <;> rfl

/-- Besides its payload a record holds scalars. -/
theorem everywhere_toValue {property : Nat → Json → Prop} {record : Record}
    (root : property 1 record.toValue.toJson)
    (scalar : ∀ json, json.isContainer = false → property 2 json)
    (payload : record.payload.toValue.toJson.Everywhere property 2) :
    record.toValue.toJson.Everywhere property 1 := by
  have single {json : Json} (plain : json.isContainer = false) : json.Everywhere property 2 :=
    Json.everywhere_of_scalar plain (scalar json plain)
  rw [toJson_toValue] at root ⊢
  refine Json.everywhere_object.2 ⟨root, ?_⟩
  simp only [trees, List.forall_mem_cons]
  exact ⟨single (scalar_toJson _), single rfl, payload, single rfl, single rfl, nofun⟩

/-- The first key of a record is not reserved. -/
theorem startsReserved_trees (record : Record) : Json.startsReserved record.trees = false :=
  show Json.isReserved "created_at" = false by decide

theorem document_trees (record : Record) :
    Document record.trees record.payload.toValue.toJson record.createdAt.toValue.toJson
      (.string record.signerKey.text) (.string record.signature.text) where
  known := by
    simp only [trees, List.forall_mem_cons]
    exact ⟨⟨.createdAt, rfl⟩, ⟨.id, rfl⟩, ⟨.payload, rfl⟩, ⟨.signature, rfl⟩, ⟨.signerKey, rfl⟩,
      nofun⟩
  payload := by simp [trees, Field.name]
  createdAt := by simp [trees, Field.name]
  signerKey := by simp [trees, Field.name]
  signature := by simp [trees, Field.name]

theorem timestampOf_toJson {time : Timestamp} (filled : time ≠ .label "") :
    timestampOf time.toValue.toJson = .ok time := by
  rw [timestampOf_eq_ok_iff]
  cases time with
  | logical time =>
      have unsigned : (Decimal.ofInt time.toNat).toUnsigned? = some time.toNat :=
        Decimal.toUnsigned?_eq_some_iff.2 ⟨by simp [Decimal.value_ofInt], time.toNat_lt⟩
      exact .inl ⟨_, _, _, rfl, Decimal.ofNumeral_numeral _, unsigned, by simp⟩
  | label text => exact .inr ⟨text, rfl, fun empty => filled (empty ▸ rfl), rfl⟩

/-! ## From a record to its text and back -/

/-- The canonical text of a value is read as what its tree gives, if both readers
take the tree. -/
theorem parse_octets_of_ofJson {value : Value} {record : Record}
    (unique : value.toJson.UniqueKeys) (nests : value.toJson.NestsWithin Json.maxOpen)
    (front : value.toJson.Everywhere (fun _ node => node.FrontPlain) 1)
    (converted : ofJson .last value.toJson = .ok record) :
    parse (Utf8.octets value.chars) = .ok record := by
  have padded := Value.padded value.spells_chars
  have guarded := Json.readGuarded_eq_ok_iff.2 ⟨padded, unique, nests⟩
  have read : Json.readPlain value.chars = .ok value.toJson :=
    (Json.readPlain_eq_ok_iff padded nests).2
      (Json.interpret_eq_self (front.mono fun _ _ plain _ => plain))
  exact parse_eq_ok_iff.2 ⟨_, _, _, rfl, guarded, read, converted⟩

theorem uniqueKeys_toValue (record : Record) : record.toValue.toJson.UniqueKeys :=
  Value.keysDistinct_of_isOrdered record.isOrdered_toValue

theorem nestsWithin_toValue {record : Record}
    (within : ∀ node ∈ record.payload.toValue.nodes 2, node.1 ≤ maxDepth) :
    record.toValue.toJson.NestsWithin Json.maxOpen := by
  refine everywhere_toValue (fun _ => by decide) (fun json scalar container => ?_) ?_
  · rw [scalar] at container
    cases container
  · exact (Value.everywhere_toJson _).2 fun node member _ =>
      (within node member).trans (by decide)

/-- The canonical text of a record without faults is read as the record. -/
theorem parse_chars {record : Record} (filled : record.createdAt ≠ .label "")
    (within : ∀ node ∈ record.payload.toValue.nodes 2, node.1 ≤ maxDepth)
    (plain : record.payload.toValue.toJson.Everywhere (fun _ node => node.FrontPlain) 2) :
    parse (Utf8.octets record.chars) = .ok record := by
  have front : record.toValue.toJson.Everywhere (fun _ node => node.FrontPlain) 1 :=
    everywhere_toValue record.startsReserved_trees
      (fun _ scalar => (Json.frontsPlain_of_scalar scalar 2).root) plain
  refine parse_octets_of_ofJson record.uniqueKeys_toValue (nestsWithin_toValue within) front ?_
  have distinct : (record.trees.map (·.1)).Nodup := record.uniqueKeys_toValue.root
  have payload := Value.ofJson_toJson record.payload.ordered within
  rw [toJson_toValue]
  exact (ofJson_eq_ok_iff distinct).2
    ⟨_, _, _, _, record.document_trees, payload, timestampOf_toJson filled, rfl, rfl⟩

/-- A record that is read has a time, and a payload without a level past the
limit. -/
theorem sound_of_parse {document : List UInt8} {record : Record}
    (parsed : parse document = .ok record) :
    record.createdAt ≠ .label "" ∧ ∀ node ∈ record.payload.toValue.nodes 2, node.1 ≤ maxDepth := by
  obtain ⟨_, _, json, _, _, _, read⟩ := parse_eq_ok_iff.1 parsed
  cases json with
  | object members =>
      obtain ⟨_, _, _, _, _, payload, time, _⟩ := ofJson_object_eq_ok_iff.1 read
      refine ⟨?_, Value.level_le_of_ofJson payload⟩
      obtain ⟨_, _, _, _, _, _, stamp⟩ | ⟨text, _, filled, stamp⟩ := timestampOf_eq_ok_iff.1 time
      · rw [stamp]
        nofun
      · rw [stamp]
        exact fun empty => filled (Timestamp.label.inj empty)
  | _ => cases read

/-- If the canonical text of a record that has been read is read again, then no
mapping of the payload begins with a reserved key. -/
theorem frontPlain_of_parse {document : List UInt8} {record other : Record}
    (parsed : parse document = .ok record)
    (again : parse (Utf8.octets record.chars) = .ok other) :
    record.payload.toValue.toJson.Everywhere (fun _ node => node.FrontPlain) 2 := by
  -- The second reading leaves a reserved key in front only where it is alone, and
  -- after the first reading it is nowhere alone.
  have alone : record.toValue.toJson.Everywhere (fun _ node => node.ReservedAlone) 1 := by
    have nests := nestsWithin_toValue (sound_of_parse parsed).2
    obtain ⟨text, _, json, same, _, read, _⟩ := parse_eq_ok_iff.1 again
    obtain rfl := Utf8.octets_injective same
    exact Json.reservedAlone_of_interpret
      ((Json.readPlain_eq_ok_iff (Value.padded record.toValue.spells_chars) nests).1 read)
  obtain ⟨_, _, json, _, _, read, converted⟩ := parse_eq_ok_iff.1 parsed
  have plain : json.FrontsPlain := Json.frontsPlain_of_readPlainWithin read
  cases json with
  | object members =>
      obtain ⟨payload, _, _, _, fields, payloadRead, _⟩ := ofJson_object_eq_ok_iff.1 converted
      exact Value.everywhere_frontPlain_of_ofJson payloadRead
        ((Json.everywhere_object.1 (plain 1)).2 _ (Sorted.mem_collect fields.payload))
        ((Json.everywhere_object.1 alone).2 _ record.document_trees.payload)
  | _ => cases converted

/-- The canonical text of a record is read as the record, except for an empty
time, a payload with too many levels, and a mapping whose least key is
reserved. -/
theorem parse_chars_iff (record : Record) :
    parse (Utf8.octets record.chars) = .ok record
      ↔ record.createdAt ≠ .label ""
        ∧ (∀ node ∈ record.payload.toValue.nodes 2, node.1 ≤ 64)
        ∧ ∀ node ∈ record.payload.toValue.nodes 2, ¬ node.2.LeadsReserved := by
  rw [← Value.everywhere_frontPlain_iff record.isOrdered_payload]
  constructor
  · intro parsed
    obtain ⟨filled, within⟩ := sound_of_parse parsed
    exact ⟨filled, within, frontPlain_of_parse parsed parsed⟩
  · rintro ⟨filled, within, plain⟩
    exact parse_chars filled within plain

end SignedFacts.Record
