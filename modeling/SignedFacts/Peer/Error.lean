import SignedFacts.Json.Basic

/-!
# What can go wrong in a round

A fetch fails for a reason of the transport.  A round fails because its fetch
failed or took too long, because the answer is no list of documents or too long
a one, because the URL is blank, or because the store cannot be used.  All but
the last two are the peer's fault.
-/

namespace SignedFacts

/-- Why a store cannot be used. -/
inductive StoreError where
  /-- The lock of the store is poisoned. -/
  | lockPoisoned
  deriving DecidableEq, Repr

/-- The error in words. -/
def StoreError.message : StoreError → String
  | lockPoisoned => "store lock poisoned"

/-- Why a fetch failed. -/
inductive FetchError where
  /-- The peer could not be contacted. -/
  | unreachable (reason : String)
  /-- The transport gave up waiting. -/
  | timedOut
  /-- The peer answered with a status that is no success. -/
  | status (code : Nat)
  /-- The answer is longer than allowed. -/
  | oversized (limit : Nat)
  /-- The connection broke, or no request could be made. -/
  | broken (reason : String)
  deriving DecidableEq, Repr

/-- The error in words. -/
def FetchError.message : FetchError → String
  | unreachable reason => s!"peer unreachable: {reason}"
  | timedOut => "transport timed out"
  | status code => s!"peer answered with status {code}"
  | oversized limit => s!"response larger than {limit} bytes"
  | broken reason => s!"transport i/o error: {reason}"

/-- Why an answer is no list of documents. -/
inductive ResponseDefect where
  /-- It cannot be read. -/
  | reading (cause : Json.ReadError)
  /-- A defect known by its description alone. -/
  | described (text : String)
  deriving DecidableEq, Repr

/-- The defect in words. -/
def ResponseDefect.message : ResponseDefect → String
  | reading cause => cause.message
  | described text => text

/-- Why a round failed. -/
inductive RoundError where
  /-- The URL is blank. -/
  | invalidUrl (url : String)
  /-- The fetch failed. -/
  | fetch (cause : FetchError)
  /-- The fetch took longer than this many milliseconds. -/
  | timeout (milliseconds : Nat)
  /-- The answer is no list of documents. -/
  | malformedResponse (defect : ResponseDefect)
  /-- The answer holds more documents than allowed. -/
  | oversized (limit got : Nat)
  /-- The store cannot be used. -/
  | store (cause : StoreError)
  deriving DecidableEq, Repr

namespace RoundError

/-- The error in words. -/
def message : RoundError → String
  | invalidUrl url => s!"invalid peer url: {Text.literal url}"
  | fetch cause => s!"transport error: {cause.message}"
  | timeout milliseconds => s!"fetch timed out after {milliseconds} ms"
  | malformedResponse defect => s!"malformed response: {defect.message}"
  | oversized limit got => s!"response holds {got} documents, limit is {limit}"
  | store cause => s!"store error: {cause.message}"

/-- Whether the failure counts against the peer. -/
def isPeerFault : RoundError → Bool
  | invalidUrl _ => false
  | store _ => false
  | _ => true

end RoundError

end SignedFacts
