import SignedFacts.Record.Envelope
import SignedFacts.Table.Basic

/-!
# The store

The store holds verified records by their ids and never lets one go.  Merging an
envelope that is not valid rejects it, and merging one whose id is known changes
nothing.  Each insertion takes a tick of the clock.

Beside the records stands an index from the octets of a signer's key to the ids
of the records under that key, so both spellings of a key find the same records.
-/

namespace SignedFacts

/-! ## Logical time -/

/-- A clock that counts events.  No event carries time zero.

Times are natural numbers and never begin again.  A clock that counts in words of
64 bits shows the same times for the first 2⁶⁴ - 1 events, and its next event
would carry time zero. -/
structure Clock where
  /-- The time of the last event. -/
  now : Nat := 0
  deriving DecidableEq, Repr

namespace Clock

/-- The time of the next event and the clock after it. -/
def tick (clock : Clock) : Nat × Clock := (clock.now + 1, ⟨clock.now + 1⟩)

/-- A time in words. -/
def shown (time : Nat) : String := s!"t{time}"

end Clock

/-! ## Entries -/

/-- Where the first copy of a record came from. -/
inductive Origin where
  /-- It was handed in on this side. -/
  | here
  /-- It was fetched from the peer at this URL. -/
  | peer (url : String)
  deriving DecidableEq, Repr

/-- The origin in words. -/
def Origin.message : Origin → String
  | here => "local"
  | peer url => s!"peer {url}"

/-- A record in the store. -/
structure Entry where
  /-- The record. -/
  record : Record
  /-- Where its first copy came from. -/
  origin : Origin
  /-- When it was inserted. -/
  insertedAt : Nat
  deriving DecidableEq

/-- What became of an envelope. -/
inductive Outcome where
  /-- Its record is new and now in the store. -/
  | inserted
  /-- A record with its id is in the store. -/
  | duplicate
  /-- It is not known to be valid. -/
  | rejected
  deriving DecidableEq, Repr

namespace Outcome

/-- Why an envelope is rejected. -/
def rejectReason : String := "envelope not verified"

/-- The outcome in words. -/
def message : Outcome → String
  | inserted => "inserted"
  | duplicate => "duplicate"
  | rejected => s!"rejected: {rejectReason}"

end Outcome

/-! ## The store -/

/-- The records of this side. -/
structure Store where
  /-- The records by their ids. -/
  records : Table RecordId Entry
  /-- The ids of the records under each key. -/
  signers : Table (List UInt8) (Table RecordId Unit)

namespace Store

/-- The store without records. -/
def empty : Store := ⟨.empty, .empty⟩

instance : Inhabited Store := ⟨empty⟩

/-- The entry with an id. -/
def find? (id : RecordId) (store : Store) : Option Entry := store.records.find? id

/-- Whether there is an entry with an id. -/
def contains (id : RecordId) (store : Store) : Bool := store.records.contains id

/-- The ids, ascending. -/
def ids (store : Store) : List RecordId := store.records.keys

/-- The entries, in order of their ids. -/
def entries (store : Store) : List Entry := store.records.values

/-- The number of entries. -/
def count (store : Store) : Nat := store.records.size

/-- The entries under a key, in order of their ids. -/
def bySigner (key : List UInt8) (store : Store) : List Entry :=
  match store.signers.find? key with
  | none => []
  | some ids => ids.keys.filterMap store.find?

/-- Adds an id to the index. -/
def index (record : Record) (id : RecordId) (store : Store) : Store :=
  match record.signerKey.decode? with
  | none => store
  | some key => { store with signers := store.signers.update key .empty (·.insert id ()) }

/-- Puts a new record into the store. -/
def add (record : Record) (id : RecordId) (origin : Origin) (time : Nat) (store : Store) : Store :=
  let store := store.index record id
  { store with records := store.records.insert id ⟨record, origin, time⟩ }

/-- Merges an envelope. -/
def merge (envelope : Envelope) (origin : Origin) (store : Store) (clock : Clock) :
    Outcome × Store × Clock :=
  if envelope.isValid then
    let id := envelope.record.id
    if store.contains id then (.duplicate, store, clock)
    else
      let (time, clock) := clock.tick
      (.inserted, store.add envelope.record id origin time, clock)
  else (.rejected, store, clock)

/-- Merges envelopes one after the other. -/
def mergeBatch (origin : Origin) :
    List Envelope → Store → Clock → List Outcome × Store × Clock
  | [], store, clock => ([], store, clock)
  | envelope :: rest, store, clock =>
      let (outcome, store, clock) := store.merge envelope origin clock
      let (outcomes, store, clock) := mergeBatch origin rest store clock
      (outcome :: outcomes, store, clock)

end Store

end SignedFacts
