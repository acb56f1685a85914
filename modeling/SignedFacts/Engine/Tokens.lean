import SignedFacts.Engine.Handle

/-!
# Tokens

Callers outside know engines by tokens, which are numbers.  The table of tokens
gives out each token once, beginning with one, and forgets a token that is freed.
A call on a token that is not in the table is answered with a status code and
touches nothing.

Text comes in as octets up to the first zero, or not at all.  Text goes out the
same way, so a text with a zero octet in it would be lost.

A round goes to a peer over a network whose behaviour is not this library's, so
its outcome is given: the fetch of the answer for a URL.
-/

namespace SignedFacts

/-- The engines by their tokens. -/
structure Tokens where
  /-- The token that is given out next. -/
  next : UInt64
  /-- The handles. -/
  handles : Table UInt64 Handle

namespace Tokens

/-- The table before the first engine. -/
def empty : Tokens := ⟨1, .empty⟩

/-- Octets up to the first zero. -/
def upToZero (octets : List UInt8) : List UInt8 := octets.takeWhile (· ≠ 0)

/-- Text that came in, if it did and is text. -/
def textIn? (octets : Option (List UInt8)) : Option String :=
  match octets with
  | none => none
  | some octets =>
      match Utf8.decode (upToZero octets) with
      | .ok text => some (String.ofList text)
      | .error _ => none

/-- Text that goes out: all of it, or nothing if a zero octet is in it. -/
def textOut (text : List Char) : List Char :=
  if (Utf8.octets text).contains 0 then [] else text

/-! ## Engines -/

/-- Makes an engine and gives out a token for it. -/
def init (settings : Settings) (tokens : Tokens) : UInt64 × Tokens :=
  (tokens.next, ⟨tokens.next + 1, tokens.handles.insert tokens.next (.new settings)⟩)

/-- The handle behind a token.  The token zero stands for none. -/
def find? (token : UInt64) (tokens : Tokens) : Option Handle :=
  if token = 0 then none else tokens.handles.find? token

/-- Frees the engine behind a token, if there is one. -/
def free (token : UInt64) (tokens : Tokens) : Tokens :=
  if token = 0 then tokens else { tokens with handles := tokens.handles.erase token }

/-- One round of the engine behind a token.  `answer` is what the network does
for a URL. -/
def sync (answer : String → Answer) (token : UInt64) (url : Option (List UInt8))
    (tokens : Tokens) : Int × Tokens :=
  match tokens.find? token with
  | none => (ErrorKind.invalidHandle.status, tokens)
  | some handle =>
      match textIn? url with
      | none => (ErrorKind.invalidArgument.status, tokens)
      | some url =>
          let peer := Text.trim url
          let engine := handle.engine
          let transport := engine.transport.respond peer (answer peer)
          let handle := { handle with engine := { engine with transport := transport } }
          let (result, handle) := handle.pull url
          let tokens := { tokens with handles := tokens.handles.insert token handle }
          match result with
          | .ok _ => (statusOk, tokens)
          | .error error => (error.status, tokens)

/-- The largest count that is told. -/
def maxCount : Nat := Nat.pow 2 31 - 1

/-- The number of peers of the engine behind a token, as far as 31 bits hold
it. -/
def peerCount (token : UInt64) (tokens : Tokens) : Int :=
  match tokens.find? token with
  | none => ErrorKind.invalidHandle.status
  | some handle =>
      match handle.peerCount with
      | .ok count => min count maxCount
      | .error error => error.status

/-! ## Without an engine -/

/-- The normalised text of a document, or the error as JSON text. -/
def processJson (document : Option (List UInt8)) : List Char :=
  match document with
  | none => textOut (EngineError.invalidArgument "json is null").toValue.chars
  | some octets =>
      match normalise octets with
      | .ok text => textOut text
      | .error error => textOut error.toValue.chars

/-- Whether a signature holds, all of it given as octets up to the first
zero. -/
def verifySignature (message signature key : Option (List UInt8)) : Bool :=
  match message, textIn? signature, textIn? key with
  | some message, some signature, some key => verifyText (upToZero message) ⟨signature⟩ ⟨key⟩
  | _, _, _ => false

end Tokens

end SignedFacts
