import SignedFacts.Peer.Registry
import SignedFacts.Peer.Response
import SignedFacts.Record.Parse
import SignedFacts.Store.Basic

/-!
# Rounds

A round takes the documents of one answer into the store.  A document that is no
record, or whose signature does not hold, is counted and passed over.  What is
left is merged in one batch, in the order of the answer.
-/

namespace SignedFacts

/-- What a completed round did. -/
structure Summary where
  /-- The URL of the peer. -/
  peer : String
  /-- The number of documents in the answer. -/
  fetched : Nat
  /-- How many of them are no records. -/
  skippedMalformed : Nat
  /-- How many are records whose signature does not hold. -/
  skippedInvalid : Nat
  /-- How many are new. -/
  inserted : Nat
  /-- How many were known. -/
  duplicate : Nat
  /-- How many the store refused. -/
  rejected : Nat
  deriving DecidableEq, Repr

namespace Round

/-- The phases a round goes through, by name. -/
inductive Phase where
  /-- Nothing has happened. -/
  | idle
  /-- The answer is waited for. -/
  | fetching
  /-- The documents are looked at. -/
  | verifying
  /-- The store takes the records. -/
  | merging
  /-- The round has come to a good end. -/
  | completed
  /-- The round has failed. -/
  | failed
  deriving DecidableEq, Repr

namespace Phase

/-- The phases in order. -/
def all : List Phase := [idle, fetching, verifying, merging, completed, failed]

/-- The name of a phase. -/
def name : Phase → String
  | idle => "idle"
  | fetching => "fetching"
  | verifying => "verifying"
  | merging => "merging"
  | completed => "completed"
  | failed => "failed"

end Phase

/-- What one document comes to. -/
inductive Verdict where
  /-- It is no record. -/
  | malformed
  /-- Its signature does not hold. -/
  | invalid
  /-- It is a record whose signature holds. -/
  | valid (envelope : Envelope)

/-- Looks at a document. -/
def judge (verifier : Verifier) (document : String) : Verdict :=
  match Record.parse (Utf8.encode document) with
  | .error _ => .malformed
  | .ok record =>
      let envelope := (Envelope.ofRecord record).verify verifier
      if envelope.isValid then .valid envelope else .invalid

/-- The envelopes whose signatures hold. -/
def valid (verdicts : List Verdict) : List Envelope :=
  verdicts.filterMap fun
    | .valid envelope => some envelope
    | _ => none

/-- Whether a document is no record. -/
def Verdict.isMalformed : Verdict → Bool
  | malformed => true
  | _ => false

/-- Whether the signature of a document does not hold. -/
def Verdict.isInvalid : Verdict → Bool
  | invalid => true
  | _ => false

/-- Counts what became of documents. -/
def summarise (peer : String) (verdicts : List Verdict) (outcomes : List Outcome) : Summary where
  peer := peer
  fetched := verdicts.length
  skippedMalformed := (verdicts.filter Verdict.isMalformed).length
  skippedInvalid := (verdicts.filter Verdict.isInvalid).length
  inserted := outcomes.count .inserted
  duplicate := outcomes.count .duplicate
  rejected := outcomes.count .rejected

/-- Takes documents from a peer into the store. -/
def takeIn (verifier : Verifier) (peer : String) (documents : List String) (store : Store)
    (clock : Clock) : Summary × Store × Clock :=
  let verdicts := documents.map (judge verifier)
  let (outcomes, store, clock) := store.mergeBatch (.peer peer) (valid verdicts) clock
  (summarise peer verdicts outcomes, store, clock)

end Round

end SignedFacts
