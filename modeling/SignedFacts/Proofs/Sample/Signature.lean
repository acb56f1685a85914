import SignedFacts.Proofs.Engine.Authentic
import SignedFacts.Proofs.Record.KeyText
import SignedFacts.Proofs.Sample.Document
import SignedFacts.Proofs.Store.Signers
import SignedFacts.Sample.Golden

/-!
# A signature and the spellings of what is signed

What is signed is the canonical text of a payload, which no style can change.  So a
signature made over a document in one style holds for the document in every other style,
and however the key and the signature are spelled.  An engine takes such a document in,
unless it has the record already (`ingest_signed`).

Of the signatures no more is used than that the verifier lets this one pass.  A signature
that passes has the right length (`Ed25519.lengths_of_verify`), so both of its spellings
stand for it.
-/

namespace SignedFacts

/-! ## Signatures that hold -/

/-- A signature that holds has 64 octets, and the key has 32. -/
theorem Ed25519.lengths_of_verify {message signature key : List UInt8}
    (holds : verify message signature key = true) : signature.length = 64 ∧ key.length = 32 := by
  rw [verify] at holds
  split at holds
  next lengths => exact lengths
  next => cases holds

/-- Both spellings of a key and a signature that hold for its message make a record
valid. -/
theorem Record.check_of_spellings {record : Record} {signature key : List UInt8}
    (holds : Ed25519.verify record.signedMessage signature key = true)
    (signer : record.signerKey ∈ KeyText.spellings key)
    (mark : record.signature ∈ KeyText.spellings signature) :
    record.check Ed25519.verify = .valid := by
  obtain ⟨signatureLength, keyLength⟩ := Ed25519.lengths_of_verify holds
  exact Engine.check_eq_valid_iff.2 ⟨key, signature,
    KeyText.decode?_of_mem_spellings (by rw [keyLength]; decide) signer,
    KeyText.decode?_of_mem_spellings (by rw [signatureLength]; decide) mark, holds⟩

/-! ## Documents that are valid -/

namespace Engine

section Valid

variable {engine : Engine} {document : List UInt8} {record : Record}
  (usable : engine.storeFault = none) (parsed : Record.parse document = .ok record)
  (valid : record.check engine.verifier = .valid)

include usable parsed valid

/-- A valid document is inserted, unless its id is known. -/
theorem ingest_valid : (engine.ingest document).1
    = .ok ⟨record.id, if engine.store.contains record.id then .duplicate else .inserted⟩ := by
  have outcome := @Store.outcome_merge engine.store
    ((Envelope.ofRecord record).verify engine.verifier) .here engine.clock
  rw [if_pos (Envelope.isValid_iff.2 valid), Envelope.record_verify] at outcome
  rw [ingest_record usable parsed, ← outcome]

/-- A record that is new is found by any text of its key. -/
theorem mem_recordsBySigner_ingest (free : engine.store.contains record.id = false)
    {query : KeyText} {octets : List UInt8} (decoded : record.signerKey.decode? = some octets)
    (asked : query.decode? = some octets) :
    ∃ entries, (engine.ingest document).2.recordsBySigner query = .ok entries
      ∧ ⟨record, .here, engine.clock.now + 1⟩ ∈ entries := by
  have merged := @Store.merge_of_free _ _ .here engine.clock (Envelope.isValid_iff.2 valid)
    (Store.contains_eq_false_iff.1 free)
  rw [ingest_record usable parsed, recordsBySigner, asked]
  simp only [merged]
  exact ⟨_, rfl, Store.mem_bySigner_add decoded⟩

end Valid

end Engine

namespace Sample

/-! ## One payload in all its documents -/

/-- A tree has one payload, and every document with this tree is read as the record of it,
whatever the other fields are. -/
theorem Tree.Regular.exists_payload {members : List (String × Tree)}
    (regular : (Tree.object members).Regular) :
    ∃ payload : Payload, payload.toValue = (Tree.object members).toValue
      ∧ ∀ (style : Style) (createdAt : Timestamp) (signer mark : KeyText), createdAt ≠ .label "" →
        Record.parse (Utf8.octets
          (document ((Tree.object members).chars style) createdAt signer.text mark.text))
            = .ok ⟨payload, createdAt, signer, mark⟩ := by
  have converted (style : Style) :
      Value.ofJson .last Record.maxDepth 2 ((Tree.object members).toJson style)
        = .ok (Tree.object members).toValue := Tree.ofJson_toJson regular.within regular.distinct
  obtain ⟨payload, same⟩ : ∃ payload : Payload, payload.toValue = (Tree.object members).toValue :=
    ⟨⟨_, Value.isOrdered_of_ofJson _ (converted .compact)⟩, rfl⟩
  refine ⟨payload, same, fun style createdAt signer mark filled => ?_⟩
  exact @parse_of_spells _ _ ⟨payload, createdAt, signer, mark⟩ (Tree.spells_chars style _)
    (Tree.everywhere_toJson regular.within)
    (Tree.everywhere_toJson fun node member => (regular.distinct node member).toJson style)
    (Tree.everywhere_toJson fun node member => (regular.plain node member).toJson style)
    (by rw [same]; exact converted style) filled

/-- A signature over the message of a document in one style is good for the document in
every other style.  Both the key and the signature may be spelled either way.  Any engine
inserts the signed document, unless it holds the id.  Then it finds the record by either
text of the key. -/
theorem ingest_signed {members : List (String × Tree)} {createdAt : Timestamp}
    (regular : (Tree.object members).Regular) (filled : createdAt ≠ .label "")
    (pair : Ed25519.Keypair) (first second : Style) (key signature : String) :
    ∃ draft : Record,
      Record.parse (Utf8.octets
          (document ((Tree.object members).chars first) createdAt key signature)) = .ok draft
      ∧ draft.signedMessage = Utf8.octets (Tree.object members).toValue.chars
      ∧ (Ed25519.verify draft.signedMessage (pair.sign draft.signedMessage) pair.publicKey = true →
        ∀ signer ∈ KeyText.spellings pair.publicKey,
        ∀ mark ∈ KeyText.spellings (pair.sign draft.signedMessage),
        let signed := Utf8.octets
          (document ((Tree.object members).chars second) createdAt signer.text mark.text)
        ∀ engine : Engine, engine.verifier = Ed25519.verify → engine.storeFault = none →
          (engine.ingest signed).1 = .ok ⟨draft.id,
              if engine.store.contains draft.id then .duplicate else .inserted⟩
          ∧ (engine.store.contains draft.id = false →
            ∀ query ∈ KeyText.spellings pair.publicKey,
              ∃ entries, (engine.ingest signed).2.recordsBySigner query = .ok entries
                ∧ ⟨⟨draft.payload, createdAt, signer, mark⟩, .here, engine.clock.now + 1⟩
                  ∈ entries)) := by
  obtain ⟨payload, same, read⟩ := regular.exists_payload
  have message : Utf8.octets payload.chars = Utf8.octets (Tree.object members).toValue.chars := by
    rw [Payload.chars, same]
  refine ⟨_, read first createdAt ⟨key⟩ ⟨signature⟩ filled, message, ?_⟩
  intro holds signer spelled mark spelledToo signed engine strict usable
  have parsed := read second createdAt signer mark filled
  have valid : (⟨payload, createdAt, signer, mark⟩ : Record).check engine.verifier = .valid := by
    rw [strict]
    exact Record.check_of_spellings holds spelled spelledToo
  have taken := Engine.ingest_valid usable parsed valid
  refine ⟨taken, fun free query asked => ?_⟩
  have part : pair.publicKey.length % 3 ≠ 0 := by
    rw [(Ed25519.lengths_of_verify holds).2]
    decide
  exact Engine.mem_recordsBySigner_ingest usable parsed valid free
    (KeyText.decode?_of_mem_spellings part spelled) (KeyText.decode?_of_mem_spellings part asked)

/-! ## A payload with all kinds of things in it -/

/-- The message of the payload with all kinds of things in it. -/
def variousMessage : List UInt8 := Utf8.octets (Tree.object variousMembers).toValue.chars

set_option maxRecDepth 100000 in
theorem verify_variousMessage : Ed25519.verify variousMessage
    (Golden.keypair.sign variousMessage) Golden.keypair.publicKey = true := by decide +kernel

/-- The shortest spelling is signed and the one with everything in it is handed in, its key
in base64 and its signature in hexadecimal digits.  The record is found by the hexadecimal
text of the key. -/
theorem ingest_signed_variousMembers :
    let signer := KeyText.ofBase64 Golden.keypair.publicKey
    let mark := KeyText.ofHex (Golden.keypair.sign variousMessage)
    let signed := Utf8.octets (document ((Tree.object variousMembers).chars ⟨true, true, true, true⟩)
      (.label "t") signer.text mark.text)
    ∃ draft : Record,
      Record.parse (Utf8.octets (document ((Tree.object variousMembers).chars .compact)
        (.label "t") "k" "s")) = .ok draft
      ∧ ((Engine.new {}).ingest signed).1 = .ok ⟨draft.id, .inserted⟩
      ∧ ∃ entries, ((Engine.new {}).ingest signed).2.recordsBySigner
          (.ofHex Golden.keypair.publicKey) = .ok entries
        ∧ ⟨⟨draft.payload, .label "t", signer, mark⟩, .here, 1⟩ ∈ entries := by
  intro signer mark signed
  obtain ⟨draft, read, message, admits⟩ := @ingest_signed _ (.label "t") regular_variousMembers
    (by decide) Golden.keypair .compact ⟨true, true, true, true⟩ "k" "s"
  rw [message] at admits
  obtain ⟨inserted, listed⟩ := admits verify_variousMessage signer (.tail _ (.head _)) mark
    (.head _) (.new {}) rfl rfl
  exact ⟨draft, read, inserted, listed rfl _ (.head _)⟩

end Sample

end SignedFacts
