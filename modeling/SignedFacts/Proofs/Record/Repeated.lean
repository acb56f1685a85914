import SignedFacts.Proofs.Json.Embedded
import SignedFacts.Proofs.Record.RoundTrip
import SignedFacts.Proofs.Record.Rearranged

/-!
# Repeated keys in accepted documents

A document that is accepted repeats no key as it is written.  The tree that its
record is made of may repeat one all the same, since the guard does not look into
embedded texts.  Where no embedded text repeats a key, no rule about repeated
keys is ever used (`parse_unrepeated`).
-/

namespace SignedFacts.Record

/-- An accepted document spells a tree that repeats no key.  The tree that the
record is made of repeats none either exactly if no embedded text is read as a
tree that does, and then it does not matter which of several members with one key
counts. -/
theorem parse_unrepeated {document : List UInt8} {record : Record}
    (parsed : parse document = .ok record) :
    ∃ text written json, document = Utf8.octets text ∧ Json.SpellsPadded text written
      ∧ written.UniqueKeys ∧ Json.readPlain text = .ok json ∧ ofJson .last json = .ok record
      ∧ (json.UniqueKeys ↔ ∀ embedded, written.Embeds embedded → ∀ tree,
        Json.readPlainWithin text.length embedded.toList = .ok tree → tree.UniqueKeys)
      ∧ (json.UniqueKeys → parseKeeping .first document = .ok record) := by
  obtain ⟨text, written, json, rfl, guarded, read, converted⟩ := parse_eq_ok_iff.1 parsed
  obtain ⟨padded, unique, nests⟩ := Json.readGuarded_eq_ok_iff.1 guarded
  have interpreted := (Json.readPlain_eq_ok_iff padded nests).1 read
  refine ⟨text, written, json, rfl, padded, unique, read, converted,
    Json.uniqueKeys_interpret_iff unique interpreted, fun unrepeated => ?_⟩
  have same : ofJson .first json = ofJson .last json := ofJson_rearranged (.refl json) unrepeated
  exact parseKeeping_eq_ok_iff.2 ⟨text, written, json, rfl, guarded, read, same ▸ converted⟩

/-! ## A repeated key that the guard does not see -/

/-- A document whose payload is an embedded text. -/
def embedding (payload : Value) : Value :=
  .mapping [("payload", .mapping [(Json.textKey, .string (String.ofList payload.chars))]),
    ("created_at", .string "t"), ("signer_public_key", .string "k"), ("signature", .string "s")]

/-- The tree that stands for this document. -/
def embeddedTree (payload : Value) : Json :=
  .object [("payload", payload.toJson), ("created_at", .string "t"),
    ("signer_public_key", .string "k"), ("signature", .string "s")]

section Embedding

variable {payload : Value}

theorem nestsWithin_embedding : (embedding payload).toJson.NestsWithin Json.maxOpen :=
  of_decide_eq_true rfl

theorem uniqueKeys_embedding : (embedding payload).toJson.UniqueKeys :=
  of_decide_eq_true rfl

variable (nests : payload.toJson.NestsWithin Json.maxOpen)
  (front : payload.toJson.Everywhere (fun _ node => node.FrontPlain) 1)

include nests front

theorem readPlain_embedding :
    Json.readPlain (embedding payload).chars = .ok (embeddedTree payload) := by
  have padded := Value.padded (embedding payload).spells_chars
  refine (Json.readPlain_eq_ok_iff padded nestsWithin_embedding).2 ?_
  obtain ⟨level, length⟩ : ∃ level, (embedding payload).chars.length = level + 1 := ⟨_, rfl⟩
  have inside : (Json.readPlainWithin (level + 1) payload.chars).toOption
      = some payload.toJson := by
    rw [Json.readPlainWithin_of_spells (Value.padded payload.spells_chars) nests]
    exact Json.interpret_eq_self (front.mono fun _ _ plain _ => plain)
  rw [length]
  simp [embedding, embeddedTree, Value.toJson, Value.membersToJson, Json.interpret,
    Json.interpretMembers, Json.startsReserved, Json.isReserved, Json.unpack?, Json.textKey,
    Json.numberKey, inside]

theorem parseKeeping_embedding {keep : Sorted.Occurrence} {record : Record}
    (converted : ofJson keep (embeddedTree payload) = .ok record) :
    parseKeeping keep (Utf8.octets (embedding payload).chars) = .ok record := by
  have padded := Value.padded (embedding payload).spells_chars
  have guarded :=
    Json.readGuarded_eq_ok_iff.2 ⟨padded, uniqueKeys_embedding, nestsWithin_embedding⟩
  exact parseKeeping_eq_ok_iff.2 ⟨_, _, _, rfl, guarded, readPlain_embedding nests front, converted⟩

end Embedding

/-- A member and another one with the same key. -/
def twice : Value := .mapping [("a", .number (.ofInt 1)), ("a", .number (.ofInt 2))]

/-- A member alone. -/
def once (number : Int) : Value := .mapping [("a", .number (.ofInt number))]

/-- The record of a document that embeds one member. -/
def single (number : Int) : Record :=
  ⟨⟨[("a", .number (.ofInt number))], rfl⟩, .label "t", ⟨"k"⟩, ⟨"s"⟩⟩

theorem parse_unrepeated_once :
    parseKeeping .first (Utf8.octets (embedding (once 1)).chars) = .ok (single 1) := by
  have front : (once 1).toJson.Everywhere (fun _ node => node.FrontPlain) 1 := by decide
  have parsed : parse (Utf8.octets (embedding (once 1)).chars) = .ok (single 1) :=
    parseKeeping_embedding (by decide) front rfl
  obtain ⟨text, written, json, same, _, _, read, _, _, unrepeated⟩ := parse_unrepeated parsed
  obtain rfl := Utf8.octets_injective same
  rw [readPlain_embedding (by decide) front] at read
  cases read
  exact unrepeated (by decide)

/-- A repeated key in an embedded text is not refused, and its last occurrence
decides what the record says. -/
theorem parse_keeps_last :
    parse (Utf8.octets (embedding twice).chars) = .ok (single 2)
      ∧ parseKeeping .first (Utf8.octets (embedding twice).chars) = .ok (single 1)
      ∧ single 1 ≠ single 2 :=
  ⟨parseKeeping_embedding (by decide) (by decide) rfl,
    parseKeeping_embedding (by decide) (by decide) rfl, by decide⟩

end SignedFacts.Record
