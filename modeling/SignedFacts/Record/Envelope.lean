import SignedFacts.Record.Basic

/-!
# Envelopes

An envelope is a record with what is known of its signature.  It starts out
unverified and is decided once.  How a signature is checked is up to the
verifier, which is only asked when both the key and the signature have octets.
-/

namespace SignedFacts

/-- Decides whether a signature of a message holds under a key. -/
abbrev Verifier := (message signature key : List UInt8) → Bool

/-- Why a signature does not hold. -/
inductive InvalidReason where
  /-- The text of the key stands for no octets. -/
  | undecodableKey
  /-- The text of the signature stands for no octets. -/
  | undecodableSignature
  /-- The verifier says no. -/
  | mismatch
  deriving DecidableEq, Repr

/-- The reason in words. -/
def InvalidReason.message : InvalidReason → String
  | undecodableKey => "undecodable public key"
  | undecodableSignature => "undecodable signature"
  | mismatch => "signature mismatch"

/-- What is known of a signature. -/
inductive Status where
  /-- Nothing yet. -/
  | unverified
  /-- It holds. -/
  | valid
  /-- It does not hold. -/
  | invalid (reason : InvalidReason)
  deriving DecidableEq, Repr

/-- The status in words. -/
def Status.message : Status → String
  | unverified => "unverified"
  | valid => "valid"
  | invalid reason => s!"invalid: {reason.message}"

namespace Record

/-- What a verifier finds out about the signature of a record. -/
def check (verifier : Verifier) (record : Record) : Status :=
  match record.signerKey.decode?, record.signature.decode? with
  | none, _ => .invalid .undecodableKey
  | some _, none => .invalid .undecodableSignature
  | some key, some signature =>
      if verifier record.signedMessage signature key then .valid else .invalid .mismatch

end Record

/-- A record with the status of its signature. -/
structure Envelope where
  /-- The record. -/
  record : Record
  /-- What is known of its signature. -/
  status : Status
  deriving DecidableEq

namespace Envelope

/-- The envelope of a record that nobody has looked at. -/
def ofRecord (record : Record) : Envelope := ⟨record, .unverified⟩

/-- Decides the status, unless it is decided. -/
def verify (verifier : Verifier) (envelope : Envelope) : Envelope :=
  match envelope.status with
  | .unverified => { envelope with status := envelope.record.check verifier }
  | _ => envelope

/-- Whether the signature is known to hold. -/
def isValid (envelope : Envelope) : Bool := envelope.status = .valid

end Envelope

end SignedFacts
