import SignedFacts.Engine.Error
import SignedFacts.Engine.Settings
import SignedFacts.Peer.Round
import SignedFacts.Peer.Transport
import SignedFacts.Store.Digest

/-!
# Engines

An engine is a store with a clock, the peers it has dealt with, and the transport
it reaches them by.  Documents come in by hand (`ingest`) or from a peer
(`pull`).

A round has a beginning and an end.  At the beginning the peer is listed and the
fetch is made; at the end, when the answer or the timeout is there, the store and
the list of peers take notice.  So rounds that are begun together end in the
order of their answers, and `pull` is a round that ends before anything else
happens.  Of two rounds that wait to the same moment the one goes on first whose
wait began first.  A failed round leaves the store and the clock alone.
-/

namespace SignedFacts

/-- A store with its clock, its peers and its transport. -/
structure Engine where
  /-- The settings. -/
  settings : Settings
  /-- How signatures are checked. -/
  verifier : Verifier
  /-- What keeps the store from being used, if anything does. -/
  storeFault : Option StoreError
  /-- The records. -/
  store : Store
  /-- The clock. -/
  clock : Clock
  /-- The peers. -/
  peers : Registry
  /-- The way to the peers. -/
  transport : Transport

namespace Engine

/-- An engine without records that checks signatures strictly. -/
def new (settings : Settings) : Engine :=
  ⟨settings, Ed25519.verify, none, .empty, {}, .empty, .empty⟩

/-! ## Rounds -/

/-- A round that has begun. -/
structure Pending where
  /-- The URL of the peer, without blanks around it. -/
  peer : String
  /-- What the fetch comes to. -/
  fetched : Except RoundError (List UInt8)
  /-- When the waits of the round end, in milliseconds from its beginning, the last
  one first.  A round without waits ends where it begins. -/
  waits : List Nat

/-- What a fetch comes to under a timeout.  `delay` is how long the answer is held
back. -/
def await (timeout delay : Nat) (result : Except FetchError (List UInt8)) :
    Except RoundError (List UInt8) :=
  if timeout < delay then .error (.timeout timeout)
  else
    match result with
    | .ok octets => .ok octets
    | .error cause => .error (.fetch cause)

/-- The waits of a round under a timeout.  One that runs into the timeout waits for
that from its beginning. -/
def waitsWithin (timeout : Nat) (answer : Answer) : List Nat :=
  if timeout < answer.delay then [timeout] else answer.waits 0

/-- Whether a round ends no later than one that begins with it or after it, told
from the waits of both.  The end of the last wait decides.  Of two waits that end
together the one is over first that began first, and a wait begins where the one
before it ends. -/
def endsNoLater : List Nat → List Nat → Bool
  | [], _ => true
  | _ :: _, [] => false
  | first :: earlier, second :: others =>
      if first = second then endsNoLater earlier others else first < second

/-- Begins a round.  A blank URL is refused before anything happens. -/
def begin (url : String) (engine : Engine) : Except RoundError Pending × Engine :=
  let peer := Text.trim url
  if peer.isEmpty then (.error (.invalidUrl url), engine)
  else
    let answer := engine.transport.answerFor peer
    let timeout := engine.settings.fetchTimeout
    let (result, transport) := engine.transport.fetch peer engine.settings.maxResponseOctets
    let fetched := await timeout answer.delay result
    let engine := { engine with peers := engine.peers.register peer, transport := transport }
    (.ok ⟨peer, fetched, waitsWithin timeout answer⟩, engine)

/-- Takes an answer into the store. -/
def takeIn (peer : String) (body : List UInt8) (engine : Engine) :
    Except RoundError (Summary × Engine) :=
  match Response.split body engine.settings.maxRecords with
  | .error error => .error error
  | .ok documents =>
      match engine.storeFault with
      | some fault => .error (.store fault)
      | none =>
          let (summary, store, clock) :=
            Round.takeIn engine.verifier peer documents engine.store engine.clock
          .ok (summary, { engine with store := store, clock := clock })

/-- Ends a round.  A completed round is an event and takes a tick. -/
def finish (pending : Pending) (engine : Engine) : Except RoundError Summary × Engine :=
  match pending.fetched.bind (engine.takeIn pending.peer) with
  | .ok (summary, engine) =>
      let (time, clock) := engine.clock.tick
      (.ok summary,
        { engine with clock := clock, peers := engine.peers.recordSuccess pending.peer time })
  | .error error =>
      if error.isPeerFault then
        (.error error,
          { engine with peers := engine.peers.recordFailure pending.peer error.message })
      else (.error error, engine)

/-- One round with a peer. -/
def pull (url : String) (engine : Engine) : Except RoundError Summary × Engine :=
  match engine.begin url with
  | (.error error, engine) => (.error error, engine)
  | (.ok pending, engine) => engine.finish pending

/-- Begins rounds one after the other. -/
def beginAll : List String → Engine → List (Except RoundError Pending) × Engine
  | [], engine => ([], engine)
  | url :: urls, engine =>
      let (first, engine) := engine.begin url
      let (others, engine) := beginAll urls engine
      (first :: others, engine)

/-- Ends rounds one after the other, each with its place in a list. -/
def finishAll : List (Nat × Pending) → Engine →
    List (Nat × Except RoundError Summary) × Engine
  | [], engine => ([], engine)
  | (place, pending) :: rest, engine =>
      let (result, engine) := engine.finish pending
      let (results, engine) := finishAll rest engine
      ((place, result) :: results, engine)

/-- Rounds that begin together.  They end in the order of their waits, those whose
waits are the same in the order of their beginnings. -/
def pullAll (urls : List String) (engine : Engine) :
    List (Except RoundError Summary) × Engine :=
  let (begun, engine) := engine.beginAll urls
  let placed := begun.zipIdx
  let waiting := placed.filterMap fun (begun, place) =>
    match begun with
    | .ok pending => some (place, pending)
    | .error _ => none
  let inOrder := waiting.mergeSort fun a b => endsNoLater a.2.waits b.2.waits
  let (ended, engine) := engine.finishAll inOrder
  let results := placed.filterMap fun (begun, place) =>
    match begun with
    | .error error => some (.error error)
    | .ok _ => (ended.find? (·.1 = place)).map (·.2)
  (results, engine)

/-- The peers with which a round has come to an end. -/
def peerCount (engine : Engine) : Nat := engine.peers.knownCount

/-- The peer with a URL, blanks around it read over. -/
def peer? (url : String) (engine : Engine) : Option Peer := engine.peers.peer? (Text.trim url)

/-! ## Records -/

/-- What became of a document handed in. -/
structure Ingested where
  /-- The id of its record. -/
  id : RecordId
  /-- What the store did. -/
  outcome : Outcome
  deriving DecidableEq

/-- Takes in a document handed in on this side. -/
def ingest (document : List UInt8) (engine : Engine) : Except EngineError Ingested × Engine :=
  match Record.parse document with
  | .error cause => (.error (.parse cause), engine)
  | .ok record =>
      match engine.storeFault with
      | some fault => (.error (.store fault), engine)
      | none =>
          let envelope := (Envelope.ofRecord record).verify engine.verifier
          let (outcome, store, clock) := engine.store.merge envelope .here engine.clock
          (.ok ⟨record.id, outcome⟩, { engine with store := store, clock := clock })

/-- The entries under a key, spelled in either way. -/
def recordsBySigner (key : KeyText) (engine : Engine) : Except EngineError (List Entry) :=
  match key.decode? with
  | none => .error (.invalidArgument KeyText.undecodable)
  | some octets => .ok (engine.store.bySigner octets)

/-- The answer that serves the records of this side. -/
def exportRecords (engine : Engine) : List Char :=
  Response.ofRecords (engine.store.entries.map Entry.record)

end Engine

/-! ## Without an engine -/

/-- The normalised text of a document. -/
def normalise (document : List UInt8) : Except EngineError (List Char) :=
  match Record.parse document with
  | .ok record => .ok record.chars
  | .error cause => .error (.parse cause)

/-- Whether a signature holds under a key, both given as text. -/
def verifyText (message : List UInt8) (signature key : KeyText) : Bool :=
  match signature.decode?, key.decode? with
  | some signature, some key => Ed25519.verify message signature key
  | _, _ => false

end SignedFacts
