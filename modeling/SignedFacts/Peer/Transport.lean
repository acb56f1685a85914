import SignedFacts.Peer.Error
import SignedFacts.Table.Basic

/-!
# A scripted transport

A transport whose answers are written down beforehand, one for each URL.  An
answer may be held back for a while.  Time is counted in milliseconds from the
start of a fetch.  The transport counts the fetches for each URL, also those
that find no answer.
-/

namespace SignedFacts

/-- What a scripted peer does. -/
inductive Answer where
  /-- It answers with these octets. -/
  | body (octets : List UInt8)
  /-- The fetch fails. -/
  | fail (error : FetchError)
  /-- It waits and goes on with another answer. -/
  | delayed (milliseconds : Nat) (next : Answer)

namespace Answer

/-- How long an answer is held back. -/
def delay : Answer → Nat
  | body _ => 0
  | fail _ => 0
  | delayed milliseconds next => milliseconds + next.delay

/-- The moments at which the waits of an answer end, the last one first, when its
fetch begins at `start`.  A wait of no length is none. -/
def waits (start : Nat) : Answer → List Nat
  | body _ => []
  | fail _ => []
  | delayed milliseconds next =>
      if milliseconds = 0 then next.waits start
      else next.waits (start + milliseconds) ++ [start + milliseconds]

/-- What a fetch of at most `limit` octets comes to. -/
def result (limit : Nat) : Answer → Except FetchError (List UInt8)
  | body octets => if limit < octets.length then .error (.oversized limit) else .ok octets
  | fail error => .error error
  | delayed _ next => next.result limit

end Answer

/-- The answers and the number of fetches for each URL. -/
structure Transport where
  /-- The answers. -/
  answers : Table String Answer
  /-- The numbers of fetches. -/
  fetches : Table String Nat

namespace Transport

/-- The transport without answers. -/
def empty : Transport := ⟨.empty, .empty⟩

instance : Inhabited Transport := ⟨empty⟩

/-- Writes down the answer for a URL, in place of one that is there. -/
def respond (url : String) (answer : Answer) (transport : Transport) : Transport :=
  { transport with answers := transport.answers.insert url answer }

/-- The answer for a URL.  Without one the peer is unreachable. -/
def answerFor (url : String) (transport : Transport) : Answer :=
  (transport.answers.find? url).getD (.fail (.unreachable s!"no route to {url}"))

/-- Counts a fetch. -/
def count (url : String) (transport : Transport) : Transport :=
  { transport with fetches := transport.fetches.update url 0 (· + 1) }

/-- The number of fetches for a URL. -/
def fetchCount (url : String) (transport : Transport) : Nat :=
  (transport.fetches.find? url).getD 0

/-- A fetch of at most `limit` octets, waited for to its end. -/
def fetch (url : String) (limit : Nat) (transport : Transport) :
    Except FetchError (List UInt8) × Transport :=
  ((transport.answerFor url).result limit, transport.count url)

end Transport

end SignedFacts
