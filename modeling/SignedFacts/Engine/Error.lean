import SignedFacts.Json.Read
import SignedFacts.Peer.Error
import SignedFacts.Record.Parse

/-!
# Errors of an engine

Every error belongs to a kind, and every kind has a status code below zero.
An error is also written as a JSON object with its kind and its detail, and for
a refused document with the kind of the refusal.
-/

namespace SignedFacts

/-- Why settings cannot be read. -/
inductive SettingsDefect where
  /-- The text cannot be read. -/
  | reading (cause : Json.ReadError)
  /-- A defect known by its description alone. -/
  | described (text : String)
  deriving DecidableEq, Repr

/-- The defect in words. -/
def SettingsDefect.message : SettingsDefect → String
  | reading cause => cause.message
  | described text => text

/-- The kinds of errors. -/
inductive ErrorKind where
  /-- A document is refused. -/
  | parse
  /-- A round fails between here and the peer. -/
  | networkError
  /-- A fetch takes too long. -/
  | timeout
  /-- A handle is not live. -/
  | invalidHandle
  /-- A peer cannot be contacted. -/
  | peerUnreachable
  /-- An argument is of no use. -/
  | invalidArgument
  /-- Something on this side fails. -/
  | internal
  deriving DecidableEq, Repr

namespace ErrorKind

/-- The name of a kind. -/
def name : ErrorKind → String
  | parse => "parse"
  | networkError => "network_error"
  | timeout => "timeout"
  | invalidHandle => "invalid_handle"
  | peerUnreachable => "peer_unreachable"
  | invalidArgument => "invalid_argument"
  | internal => "internal"

/-- The status code of a kind. -/
def status : ErrorKind → Int
  | networkError => -1
  | timeout => -2
  | invalidHandle => -3
  | peerUnreachable => -4
  | invalidArgument => -5
  | parse => -6
  | internal => -7

end ErrorKind

/-- The status code of success. -/
def statusOk : Int := 0

/-- The kind of a failed round. -/
def RoundError.kind : RoundError → ErrorKind
  | invalidUrl _ => .invalidArgument
  | fetch (.unreachable _) => .peerUnreachable
  | fetch .timedOut => .timeout
  | fetch _ => .networkError
  | timeout _ => .timeout
  | malformedResponse _ => .networkError
  | oversized _ _ => .networkError
  | store _ => .internal

/-- Why an engine cannot do what it is asked. -/
inductive EngineError where
  /-- A document is refused. -/
  | parse (cause : RecordError)
  /-- A round failed. -/
  | sync (cause : RoundError)
  /-- The store cannot be used. -/
  | store (cause : StoreError)
  /-- The handle was freed, or there never was one. -/
  | invalidHandle
  /-- An argument is of no use. -/
  | invalidArgument (detail : String)
  /-- The settings cannot be read. -/
  | settings (defect : SettingsDefect)
  deriving DecidableEq, Repr

namespace EngineError

/-- The error in words. -/
def message : EngineError → String
  | parse cause => s!"parse error: {cause.message}"
  | sync cause => s!"sync error: {cause.message}"
  | store cause => s!"storage error: {cause.message}"
  | invalidHandle => "invalid engine handle"
  | invalidArgument detail => s!"invalid argument: {detail}"
  | settings defect => s!"invalid configuration: {defect.message}"

/-- The kind of an error. -/
def kind : EngineError → ErrorKind
  | parse _ => .parse
  | sync cause => cause.kind
  | store _ => .internal
  | invalidHandle => .invalidHandle
  | invalidArgument _ => .invalidArgument
  | settings _ => .invalidArgument

/-- The status code of an error. -/
def status (error : EngineError) : Int := error.kind.status

/-- The detail of an error: its words, without what the kind says already for a
refused document. -/
def detail : EngineError → String
  | parse cause => cause.message
  | error => error.message

/-- The kind of a refusal, if a document is refused. -/
def reason? : EngineError → Option String
  | parse cause => some cause.kind
  | _ => none

/-- The error as a value. -/
def toValue (error : EngineError) : Value :=
  let reason :=
    match error.reason? with
    | some reason => [("reason", .string reason)]
    | none => []
  .mapping [("error", .mapping
    (("detail", .string error.detail) :: ("kind", .string error.kind.name) :: reason))]

/-- The error as JSON text. -/
def toJson (error : EngineError) : String := error.toValue.text

end EngineError

end SignedFacts
