import SignedFacts.Proofs.Value.Reserved
import SignedFacts.Record.Parse

/-!
# Records of trees

`Record.ofJson` is taken apart for trees that repeat no key.  A tree gives a
record exactly if it is an object with known fields whose four required fields
give the parts of the record (`Record.ofJson_eq_ok_iff`).
-/

namespace SignedFacts

/-- Members are those of a document, and these trees stand under the required
fields. -/
@[mk_iff] structure Document (members : List (String × Json))
    (payload createdAt signerKey signature : Json) : Prop where
  known : ∀ member ∈ members, ∃ field : Field, field.name = member.1
  payload : (Field.payload.name, payload) ∈ members
  createdAt : (Field.createdAt.name, createdAt) ∈ members
  signerKey : (Field.signerKey.name, signerKey) ∈ members
  signature : (Field.signature.name, signature) ∈ members

namespace Record

/-! ## Fields -/

theorem fieldOf_eq_ok_iff {fields : List (String × Json)} {field : Field} {json : Json} :
    fieldOf fields field = .ok json ↔ Sorted.find? field.name fields = some json := by
  rw [fieldOf]
  cases Sorted.find? field.name fields <;> simp

theorem payload_ofJson_eq_ok_iff {keep : Sorted.Occurrence} {limit depth : Nat}
    {members : List (String × Json)} {payload : Payload} (room : depth ≤ limit) :
    Payload.ofJson keep limit depth members = .ok payload
      ↔ Value.ofJson keep limit depth (.object members) = .ok payload.toValue := by
  have same : Payload.ofJson keep limit depth members = .ok payload
      ↔ Value.membersOfJson keep limit depth members = .ok payload.members := by
    rw [Payload.ofJson]
    split
    next failed => simp [failed]
    next values converted => simp [converted, Payload.ext_iff]
  rw [same, Value.membersOfJson, Value.allMembers_eq_ok_iff, Value.ofMembers_eq_map,
    Value.ofJson_object_eq_ok_iff]
  simp [room, Payload.toValue]

theorem payloadOf_eq_ok_iff {keep : Sorted.Occurrence} {json : Json} {payload : Payload} :
    payloadOf keep json = .ok payload
      ↔ Value.ofJson keep maxDepth 2 json = .ok payload.toValue := by
  have noObject (other : ∀ members, json ≠ .object members) :
      ¬ Value.ofJson keep maxDepth 2 json = .ok payload.toValue := by
    intro converted
    obtain ⟨members, same⟩ := Value.object_of_ofJson converted
    exact other members same
  cases json with
  | object members =>
      rw [← payload_ofJson_eq_ok_iff (by decide), payloadOf]
      cases Payload.ofJson keep maxDepth 2 members <;> simp
  | _ => exact iff_of_false (by simp [payloadOf]) (noObject (by simp))

theorem keyTextOf_eq_ok_iff {field : Field} {json : Json} {key : KeyText} :
    keyTextOf field json = .ok key ↔ json = .string key.text := by
  cases json with
  | string text =>
      obtain ⟨other⟩ := key
      simp [keyTextOf]
  | _ => simp [keyTextOf]

theorem timestampOf_eq_ok_iff {json : Json} {time : Timestamp} :
    timestampOf json = .ok time
      ↔ (∃ n x k, json = .number n ∧ Decimal.ofNumeral n = .ok x ∧ x.toUnsigned? = some k
          ∧ time = .logical (UInt64.ofNat k))
        ∨ ∃ text, json = .string text ∧ text ≠ "" ∧ time = .label text := by
  cases json with
  | number n =>
      rw [timestampOf]
      cases read : Decimal.ofNumeral n with
      | error e => simp [read]
      | ok x => cases unsigned : x.toUnsigned? <;> simp [read, unsigned, eq_comm]
  | string text =>
      rw [timestampOf]
      split
      next empty => simp [String.isEmpty_iff.1 empty]
      next filled => simp [mt String.isEmpty_iff.2 filled, eq_comm]
  | _ => simp [timestampOf]

theorem find?_unknown_eq_none_iff {fields : List (String × Json)} :
    (fields.find? fun (key, _) => !Field.all.any (·.name = key)) = none
      ↔ ∀ member ∈ fields, ∃ field : Field, field.name = member.1 := by
  rw [List.find?_eq_none]
  refine forall₂_congr fun member _ => ?_
  simp only [Bool.not_eq_true, Bool.not_eq_false', List.any_eq_true, decide_eq_true_eq]
  refine exists_congr fun field => and_iff_right ?_
  cases field <;> decide

/-! ## The whole record -/

/-- Of an object with the fields of a document the parts are read in a fixed order. -/
theorem ofJson_of_document {keep : Sorted.Occurrence} {members : List (String × Json)}
    {payload createdAt signerKey signature : Json}
    (document : Document (Sorted.collect keep members) payload createdAt signerKey signature) :
    ofJson keep (.object members) = (do
      let payload ← payloadOf keep payload
      let createdAt ← timestampOf createdAt
      let signerKey ← keyTextOf .signerKey signerKey
      let signature ← keyTextOf .signature signature
      .ok ⟨payload, createdAt, signerKey, signature⟩) := by
  have field {field : Field} {json : Json}
      (member : (field.name, json) ∈ Sorted.collect keep members) :
      fieldOf (Sorted.collect keep members) field = .ok json :=
    fieldOf_eq_ok_iff.2 ((Sorted.find?_eq_some_iff (Sorted.ascending_collect _ _)).2 member)
  simp only [ofJson, find?_unknown_eq_none_iff.2 document.known, field document.payload,
    field document.createdAt, field document.signerKey, field document.signature, bind,
    Except.bind]

/-- An object gives the record of the members that count. -/
theorem ofJson_object_eq_ok_iff {keep : Sorted.Occurrence} {members : List (String × Json)}
    {record : Record} :
    ofJson keep (.object members) = .ok record
      ↔ ∃ payload createdAt signerKey signature,
        Document (Sorted.collect keep members) payload createdAt signerKey signature
          ∧ Value.ofJson keep maxDepth 2 payload = .ok record.payload.toValue
          ∧ timestampOf createdAt = .ok record.createdAt
          ∧ signerKey = .string record.signerKey.text
          ∧ signature = .string record.signature.text := by
  have field (field : Field) (json : Json) :
      fieldOf (Sorted.collect keep members) field = .ok json
        ↔ (field.name, json) ∈ Sorted.collect keep members := by
    rw [fieldOf_eq_ok_iff, Sorted.find?_eq_some_iff (Sorted.ascending_collect _ _)]
  have known := @find?_unknown_eq_none_iff (Sorted.collect keep members)
  simp only [← payloadOf_eq_ok_iff]
  constructor
  · intro read
    rw [ofJson] at read
    simp only at read
    split at read
    next => cases read
    next none =>
      obtain ⟨payload, payloadField, read⟩ := Json.of_bind_eq_ok read
      obtain ⟨createdAt, createdAtField, read⟩ := Json.of_bind_eq_ok read
      obtain ⟨signerKey, signerKeyField, read⟩ := Json.of_bind_eq_ok read
      obtain ⟨signature, signatureField, read⟩ := Json.of_bind_eq_ok read
      obtain ⟨payloadValue, payloadRead, read⟩ := Json.of_bind_eq_ok read
      obtain ⟨time, timeRead, read⟩ := Json.of_bind_eq_ok read
      obtain ⟨keyText, keyTextRead, read⟩ := Json.of_bind_eq_ok read
      obtain ⟨signatureText, signatureTextRead, read⟩ := Json.of_bind_eq_ok read
      cases read
      refine ⟨payload, createdAt, signerKey, signature, ?_, payloadRead, timeRead,
        keyTextOf_eq_ok_iff.1 keyTextRead, keyTextOf_eq_ok_iff.1 signatureTextRead⟩
      exact ⟨known.1 none, (field _ _).1 payloadField, (field _ _).1 createdAtField,
        (field _ _).1 signerKeyField, (field _ _).1 signatureField⟩
  · rintro ⟨payload, createdAt, signerKey, signature, document, payloadRead, timeRead, rfl, rfl⟩
    rw [ofJson_of_document document]
    simp only [payloadRead, timeRead, keyTextOf, bind, Except.bind]

/-- Of an object that repeats no key every member counts. -/
theorem document_collect_iff {keep : Sorted.Occurrence} {members : List (String × Json)}
    {payload createdAt signerKey signature : Json} (distinct : (members.map (·.1)).Nodup) :
    Document (Sorted.collect keep members) payload createdAt signerKey signature
      ↔ Document members payload createdAt signerKey signature := by
  have mem {member : String × Json} : member ∈ Sorted.collect keep members ↔ member ∈ members :=
    (Sorted.collect_perm distinct).mem_iff
  simp only [document_iff, mem]

/-- An object that repeats no key gives the record of its fields. -/
theorem ofJson_eq_ok_iff {keep : Sorted.Occurrence} {members : List (String × Json)}
    {record : Record} (distinct : (members.map (·.1)).Nodup) :
    ofJson keep (.object members) = .ok record
      ↔ ∃ payload createdAt signerKey signature,
        Document members payload createdAt signerKey signature
          ∧ Value.ofJson keep maxDepth 2 payload = .ok record.payload.toValue
          ∧ timestampOf createdAt = .ok record.createdAt
          ∧ signerKey = .string record.signerKey.text
          ∧ signature = .string record.signature.text := by
  simp only [ofJson_object_eq_ok_iff, document_collect_iff distinct]

end Record

end SignedFacts
