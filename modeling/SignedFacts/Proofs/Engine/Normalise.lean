import SignedFacts.Engine.Basic
import SignedFacts.Proofs.Record.RoundTrip

/-!
# Normalised texts

The normalised text of a document either is its own normalised text or is
refused.  It is refused if sorting has brought a reserved key to the front of a
mapping in the payload (`normalise_fixed_or_refused`).
-/

namespace SignedFacts

theorem normalise_eq_ok_iff {document : List UInt8} {text : List Char} :
    normalise document = .ok text
      ↔ ∃ record, Record.parse document = .ok record ∧ record.chars = text := by
  rw [normalise]
  cases Record.parse document <;> simp

/-- The normalised text of a document is read as the same record and normalised
to itself, as long as no mapping in the payload is led by a reserved key.
Otherwise it is refused. -/
theorem normalise_fixed_or_refused {document : List UInt8} {text : List Char}
    (accepted : normalise document = .ok text) :
    ∃ record, Record.parse document = .ok record ∧ text = record.chars
      ∧ ((∀ node ∈ record.payload.toValue.nodes 2, ¬ node.2.LeadsReserved) →
        Record.parse (Utf8.octets text) = .ok record ∧ normalise (Utf8.octets text) = .ok text)
      ∧ ((∃ node ∈ record.payload.toValue.nodes 2, node.2.LeadsReserved) →
        ∃ cause, normalise (Utf8.octets text) = .error (.parse cause)) := by
  obtain ⟨record, parsed, rfl⟩ := normalise_eq_ok_iff.1 accepted
  have leaders := @Value.everywhere_frontPlain_iff _ 2 record.isOrdered_payload
  refine ⟨record, parsed, rfl, fun plain => ?_, ?_⟩
  · obtain ⟨filled, within⟩ := Record.sound_of_parse parsed
    have again := Record.parse_chars filled within (leaders.2 plain)
    exact ⟨again, normalise_eq_ok_iff.2 ⟨record, again, rfl⟩⟩
  · rintro ⟨node, member, leads⟩
    cases again : Record.parse (Utf8.octets record.chars) with
    | error cause => exact ⟨cause, by rw [normalise, again]⟩
    | ok other =>
        have front := Record.frontPlain_of_parse parsed again
        exact absurd leads (leaders.1 front node member)

/-! ## A key that sorting brings to the front -/

/-- A document with a reserved key behind another one. -/
def trailingKey : Value :=
  .mapping [("payload", .mapping [("a", .number (.ofInt 1)), (Json.numberKey, .string "5")]),
    ("created_at", .string "t"), ("signer_public_key", .string "k"), ("signature", .string "s")]

/-- The record of this document.  Its payload begins with the reserved key. -/
def leadingKey : Record :=
  ⟨⟨[(Json.numberKey, .string "5"), ("a", .number (.ofInt 1))], by decide⟩, .label "t", ⟨"k"⟩,
    ⟨"s"⟩⟩

theorem parse_trailingKey : Record.parse (Utf8.octets trailingKey.chars) = .ok leadingKey :=
  Record.parse_octets_of_ofJson (by decide) (by decide) (by decide) rfl

theorem normalise_fixed_or_refused_trailingKey :
    ∃ cause, normalise (Utf8.octets leadingKey.chars) = .error (.parse cause) := by
  have accepted := normalise_eq_ok_iff.2 ⟨leadingKey, parse_trailingKey, rfl⟩
  obtain ⟨record, parsed, _, _, refused⟩ := normalise_fixed_or_refused accepted
  obtain rfl := Except.ok.inj (parse_trailingKey.symm.trans parsed)
  exact refused ⟨_, .head _, _, .head _, by decide, by decide⟩

/-- The text of an accepted document need not be accepted again. -/
theorem normalise_not_fixed :
    normalise (Utf8.octets trailingKey.chars) = .ok leadingKey.chars
      ∧ normalise (Utf8.octets leadingKey.chars) ≠ .ok leadingKey.chars := by
  refine ⟨normalise_eq_ok_iff.2 ⟨leadingKey, parse_trailingKey, rfl⟩, fun again => ?_⟩
  obtain ⟨other, parsed, _⟩ := normalise_eq_ok_iff.1 again
  exact absurd (Record.frontPlain_of_parse parse_trailingKey parsed).root (by decide)

end SignedFacts
