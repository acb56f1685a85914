import SignedFacts.Proofs.Octets.Utf8
import SignedFacts.Proofs.Value.Canonical
import SignedFacts.Record.Basic

/-!
# Canonical texts of payloads and records

The octets of a payload determine it, and those of a record determine all its
parts (`Record.octets_determine`).  So ids are as good as the hash behind them.
-/

namespace SignedFacts

theorem Payload.eq_of_octets_eq {p q : Payload}
    (same : Utf8.octets p.chars = Utf8.octets q.chars) : p = q := by
  have values : p.toValue = q.toValue := Value.chars_injective (Utf8.octets_injective same)
  exact Payload.ext (Value.mapping.inj values)

/-- A counter reading is no label, and both are kept as they are. -/
theorem Timestamp.toValue_injective : Function.Injective Timestamp.toValue := by
  intro first second same
  cases first with
  | logical time =>
      cases second with
      | logical other =>
          have units : (time.toNat : Int) = other.toNat :=
            congrArg Decimal.units (Value.number.inj same)
          rw [UInt64.toNat_inj.1 (Int.ofNat.inj units)]
      | label => cases same
  | label text =>
      cases second with
      | logical => cases same
      | label => rw [Value.string.inj same]

namespace Record

theorem eq_of_octets_eq {r s : Record} (same : Utf8.octets r.chars = Utf8.octets s.chars) :
    r = s := by
  have values : r.toValue = s.toValue := Value.chars_injective (Utf8.octets_injective same)
  obtain ⟨payload, createdAt, ⟨signerKey⟩, ⟨signature⟩⟩ := r
  obtain ⟨otherPayload, otherTime, ⟨otherKey⟩, ⟨otherSignature⟩⟩ := s
  simp only [toValue, Value.mapping.injEq, List.cons.injEq, Prod.mk.injEq, true_and,
    Value.string.injEq] at values
  obtain ⟨time, _, payloads, signatures, keys, _⟩ := values
  obtain rfl := Timestamp.toValue_injective time
  obtain rfl := Payload.ext (Value.mapping.inj payloads)
  rw [signatures, keys]

/-- Canonical octets determine what they are the octets of.  So do ids, if the
hash behind them does not collide on the two payloads. -/
theorem octets_determine :
    (∀ p q : Payload, Utf8.octets p.chars = Utf8.octets q.chars → p = q)
    ∧ (∀ r s : Record, Utf8.octets r.chars = Utf8.octets s.chars →
      r.payload = s.payload ∧ r.createdAt = s.createdAt ∧ r.signerKey = s.signerKey
        ∧ r.signature = s.signature)
    ∧ ∀ r s : Record,
      (Blake3.hash (RecordId.marker ++ r.signedMessage)
          = Blake3.hash (RecordId.marker ++ s.signedMessage) →
        RecordId.marker ++ r.signedMessage = RecordId.marker ++ s.signedMessage) →
      r.id = s.id → r.payload = s.payload := by
  refine ⟨fun p q => Payload.eq_of_octets_eq, fun r s same => ?_, fun r s noCollision same => ?_⟩
  · obtain rfl := eq_of_octets_eq same
    exact ⟨rfl, rfl, rfl, rfl⟩
  · have hashed := noCollision (congrArg RecordId.octets same)
    exact Payload.eq_of_octets_eq (List.append_cancel_left hashed)

/-- A payload with a number inside a mapping inside a sequence. -/
def numberPayload : Payload :=
  ⟨[("a", .sequence [.mapping [("b", .number (.ofInt 7)), ("c", .null)], .string "d"]),
    ("e", .mapping [])], by decide⟩

/-- The same payload with a string of the same digits in place of the number. -/
def textPayload : Payload :=
  ⟨[("a", .sequence [.mapping [("b", .string "7"), ("c", .null)], .string "d"]),
    ("e", .mapping [])], by decide⟩

theorem octets_determine_two_labels :
    let first : Record := ⟨numberPayload, .logical 7, ⟨"k"⟩, ⟨"s"⟩⟩
    let second : Record := ⟨numberPayload, .label "7", ⟨"k"⟩, ⟨"s"⟩⟩
    let third : Record := ⟨textPayload, .logical 7, ⟨"k"⟩, ⟨"s"⟩⟩
    first.id = second.id ∧ first.payload = second.payload
      ∧ Utf8.octets first.chars ≠ Utf8.octets second.chars
      ∧ Utf8.octets numberPayload.chars ≠ Utf8.octets textPayload.chars
      ∧ first.id ≠ third.id := by
  intro first second third
  obtain ⟨payloads, records, ids⟩ := octets_determine
  have apart : numberPayload ≠ textPayload := by decide
  have noCollision : Blake3.hash (RecordId.marker ++ first.signedMessage)
      ≠ Blake3.hash (RecordId.marker ++ third.signedMessage) := by decide +kernel
  refine ⟨rfl, ids first second (fun _ => rfl) rfl, fun same => ?_, fun same => ?_, fun same => ?_⟩
  · cases (records _ _ same).2.1
  · exact apart (payloads _ _ same)
  · exact apart (ids first third (absurd · noCollision) same)

end Record

end SignedFacts
