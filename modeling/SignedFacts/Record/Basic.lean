import SignedFacts.Record.Id
import SignedFacts.Record.KeyText
import SignedFacts.Signature.Ed25519
import SignedFacts.Value.Basic

/-!
# Records

A record is a payload with the time its author gave it, the author's key and a
signature.  The id is computed from the payload, so records with one payload
have one id, whoever signed them.  What is signed is the canonical text of the
payload.

`Record.chars` is the normalised text of the whole record, the id included.
-/

namespace SignedFacts

/-- When a record was made, as its author counts. -/
inductive Timestamp where
  /-- The reading of a counter. -/
  | logical (time : UInt64)
  /-- A label of the author's own. -/
  | label (text : String)
  deriving DecidableEq, Repr

namespace Timestamp

/-- The time as a value. -/
def toValue : Timestamp → Value
  | logical time => .number (.ofInt time.toNat)
  | label text => .string text

/-- The time as text. -/
def text : Timestamp → String
  | logical time => toString time.toNat
  | label text => text

end Timestamp

/-- A signed payload. -/
structure Record where
  /-- What is said. -/
  payload : Payload
  /-- When it was said. -/
  createdAt : Timestamp
  /-- Whose signature it should be. -/
  signerKey : KeyText
  /-- The signature. -/
  signature : KeyText
  deriving DecidableEq

namespace Record

/-- What the signature is about: the canonical payload. -/
def signedMessage (record : Record) : List UInt8 := Utf8.octets record.payload.chars

/-- The content address. -/
def id (record : Record) : RecordId := .derive record.signedMessage

/-- The record as a value, its members in order. -/
def toValue (record : Record) : Value :=
  .mapping [
    ("created_at", record.createdAt.toValue),
    ("id", .string record.id.toHex),
    ("payload", record.payload.toValue),
    ("signature", .string record.signature.text),
    ("signer_public_key", .string record.signerKey.text)]

/-- The normalised text. -/
def chars (record : Record) : List Char := record.toValue.chars

/-- The normalised text of a record. -/
def text (record : Record) : String := String.ofList record.chars

/-- A payload signed with a key pair, both written in hexadecimal digits. -/
def sign (pair : Ed25519.Keypair) (createdAt : Timestamp) (payload : Payload) : Record where
  payload := payload
  createdAt := createdAt
  signerKey := .ofHex pair.publicKey
  signature := .ofHex (pair.sign (Utf8.octets payload.chars))

end Record

end SignedFacts
