import SignedFacts.Table.Basic

/-!
# Peers

What is remembered of each peer: whether its last round completed, when the last
completed one was, and how many failed since.  Peers are told apart by their
URLs as they are spelled, and none is ever forgotten.
-/

namespace SignedFacts

/-- How the last round with a peer went. -/
inductive PeerState where
  /-- None has come to an end. -/
  | unknown
  /-- It completed. -/
  | reachable
  /-- It failed. -/
  | unreachable
  deriving DecidableEq, Repr

/-- The state in words. -/
def PeerState.message : PeerState → String
  | unknown => "unknown"
  | reachable => "reachable"
  | unreachable => "unreachable"

/-- What is remembered of a peer. -/
structure Peer where
  /-- The URL. -/
  url : String
  /-- When the last completed round was. -/
  lastSyncAt : Option Nat
  /-- The number of failed rounds since. -/
  failures : Nat
  /-- How the last round went. -/
  state : PeerState
  /-- Why the last round failed, if it did. -/
  lastError : Option String
  deriving DecidableEq, Repr

namespace Peer

/-- A peer nothing is known of. -/
def fresh (url : String) : Peer := ⟨url, none, 0, .unknown, none⟩

/-- The largest number of failures that is told apart. -/
def maxFailures : Nat := UInt32.size - 1

/-- The peer after a completed round. -/
def succeed (time : Nat) (peer : Peer) : Peer :=
  { peer with lastSyncAt := some time, failures := 0, state := .reachable, lastError := none }

/-- The peer after a failed round. -/
def fail (error : String) (peer : Peer) : Peer :=
  { peer with
    failures := min (peer.failures + 1) maxFailures
    state := .unreachable
    lastError := some error }

end Peer

/-- The peers by their URLs. -/
abbrev Registry := Table String Peer

namespace Registry

/-- Makes sure that a peer is listed. -/
def register (url : String) (peers : Registry) : Registry := peers.update url (.fresh url) id

/-- Notes a completed round. -/
def recordSuccess (url : String) (time : Nat) (peers : Registry) : Registry :=
  peers.update url (.fresh url) (Peer.succeed time)

/-- Notes a failed round. -/
def recordFailure (url : String) (error : String) (peers : Registry) : Registry :=
  peers.update url (.fresh url) (Peer.fail error)

/-- The peer with a URL. -/
def peer? (url : String) (peers : Registry) : Option Peer := peers.find? url

/-- The peers in order of their URLs. -/
def all (peers : Registry) : List Peer := peers.values

/-- The number of peers with which a round has come to an end. -/
def knownCount (peers : Registry) : Nat :=
  (peers.all.filter fun peer => peer.state ≠ .unknown).length

end Registry

end SignedFacts
