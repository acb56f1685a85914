import SignedFacts.Octets.Endian
import SignedFacts.Store.Basic

/-!
# Parties

A party is a key pair with a store of its own.  It makes claims, which are
records with one member, and merges them.  It also makes documents that must not
be believed: one changed after it was signed, and one under the key of another.
-/

namespace SignedFacts.Sample

/-- A document for a record, with its fields out of order and blanks between
them.  The key and the signature stand between quotes as they are. -/
def looseDocument (record : Record) : List Char :=
  "\x7b \"signature\": \"".toList ++ record.signature.text.toList
    ++ "\", \"payload\": ".toList ++ record.payload.chars
    ++ ", \"signer_public_key\": \"".toList ++ record.signerKey.text.toList
    ++ "\", \"created_at\": ".toList ++ record.createdAt.toValue.chars ++ " \x7d".toList

/-- A key pair with a store and a clock. -/
structure Party where
  /-- The key pair. -/
  keypair : Ed25519.Keypair
  /-- The store. -/
  store : Store
  /-- The clock. -/
  clock : Clock

namespace Party

/-- The key under which a claim is shown that another party signed. -/
def stranger : Ed25519.Keypair := ⟨.replicate 32 0xee⟩

/-- The party with a seed, before it has claimed anything. -/
def ofSeed (seed : Vector UInt8 32) : Party := ⟨⟨seed⟩, .empty, {}⟩

/-- The party with a number. -/
def ofNumber (number : Nat) : Party :=
  ofSeed ⟨(Octets.toLittleEndian 2 number ++ List.replicate 30 0).toArray, by
    simp [Octets.toLittleEndian]⟩

/-- The parties with the first numbers. -/
def first (count : Nat) : List Party := (List.range count).map ofNumber

/-- The record of a claim. -/
def record (claim : String) (party : Party) : Record :=
  .sign party.keypair (.logical 1) (.ofMembers [("claim", .string claim)])

/-- The document of a claim. -/
def document (claim : String) (party : Party) : List Char := looseDocument (party.record claim)

/-- The document of a claim that was edited after it was signed. -/
def tampered (claim : String) (party : Party) : List Char :=
  let record := party.record claim
  looseDocument
    { record with payload := record.payload.insert "claim" (.string s!"{claim} (edited)") }

/-- The document of a claim under another key. -/
def foreign (claim : String) (party : Party) : List Char :=
  looseDocument { party.record claim with signerKey := .ofHex stranger.publicKey }

/-- The envelope of a claim, its signature checked. -/
def envelope (claim : String) (party : Party) : Envelope :=
  (Envelope.ofRecord (party.record claim)).verify Ed25519.verify

/-- Merges a claim into the party's own store. -/
def merge (claim : String) (party : Party) : Outcome × Party :=
  let (outcome, store, clock) := party.store.merge (party.envelope claim) .here party.clock
  (outcome, { party with store := store, clock := clock })

end Party

end SignedFacts.Sample
