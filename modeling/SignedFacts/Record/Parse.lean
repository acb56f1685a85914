import SignedFacts.Json.Read
import SignedFacts.Record.Basic
import SignedFacts.Value.OfJson

/-!
# Records from documents

A document is the JSON text of a record.  It is an object with four fields and
perhaps an `id`, which is read over, since ids are computed.  The text is read
twice.  The first reading refuses repeated keys.  The second gives the tree that
the record is made of.

Faults are looked for in a fixed order, and the first is told: the encoding,
the text, the shape of the whole, a field that does not belong in order of the
keys, a missing field, the payload, the time, the key, the signature.
-/

namespace SignedFacts

/-- The fields of a document. -/
inductive Field where
  /-- What is said. -/
  | payload
  /-- When it was said. -/
  | createdAt
  /-- The key of the author. -/
  | signerKey
  /-- The signature. -/
  | signature
  /-- The content address, read over. -/
  | id
  deriving DecidableEq, Repr

namespace Field

/-- The key of a field. -/
def name : Field → String
  | payload => "payload"
  | createdAt => "created_at"
  | signerKey => "signer_public_key"
  | signature => "signature"
  | id => "id"

/-- The fields. -/
def all : List Field := [payload, createdAt, signerKey, signature, id]

end Field

/-- What makes a document no record. -/
inductive Defect where
  /-- The octets are not UTF-8. -/
  | encoding (cause : Utf8.DecodeError)
  /-- The text is no JSON. -/
  | reading (cause : Json.ReadError)
  /-- The document is no object. -/
  | notObject
  /-- The payload is no object. -/
  | payloadNotObject
  /-- The payload holds something that is no value. -/
  | value (cause : Value.OfJsonError)
  /-- A field that should be a string is none. -/
  | notString (field : Field)
  /-- A defect known by its description alone. -/
  | described (text : String)
  deriving DecidableEq, Repr

/-- The defect in words. -/
def Defect.message : Defect → String
  | encoding cause => s!"invalid UTF-8: {cause.message}"
  | reading cause => cause.message
  | notObject => "record must be a JSON object"
  | payloadNotObject => "payload must be a JSON object"
  | value cause => cause.message
  | notString field => s!"{field.name} must be a string"
  | described text => text

/-- Why a document is refused. -/
inductive RecordError where
  /-- It is no record. -/
  | malformed (defect : Defect)
  /-- A field is missing. -/
  | missingField (name : String)
  /-- A field does not belong. -/
  | unexpectedField (name : String)
  /-- The time is neither a counter reading nor a label. -/
  | invalidTimestamp
  deriving DecidableEq, Repr

namespace RecordError

/-- The name of the kind of error. -/
def kind : RecordError → String
  | malformed _ => "malformed"
  | missingField _ => "missing_field"
  | unexpectedField _ => "unexpected_field"
  | invalidTimestamp => "invalid_timestamp"

/-- What more there is to say. -/
def detail? : RecordError → Option String
  | malformed defect => some defect.message
  | missingField name => some name
  | unexpectedField name => some name
  | invalidTimestamp => none

/-- The error in words. -/
def message : RecordError → String
  | malformed defect => s!"malformed record: {defect.message}"
  | missingField name => s!"missing field: {name}"
  | unexpectedField name => s!"unexpected field: {name}"
  | invalidTimestamp => "invalid timestamp"

end RecordError

namespace Record

/-- The number of levels of a document, the outermost object included. -/
def maxDepth : Nat := 64

/-- The tree under a field that must be there. -/
def fieldOf (fields : List (String × Json)) (field : Field) : Except RecordError Json :=
  match Sorted.find? field.name fields with
  | some json => .ok json
  | none => .error (.missingField field.name)

/-- The payload of the tree under its field.  It stands at level two. -/
def payloadOf (keep : Sorted.Occurrence) : Json → Except RecordError Payload
  | .object members =>
      match Payload.ofJson keep maxDepth 2 members with
      | .ok payload => .ok payload
      | .error cause => .error (.malformed (.value cause))
  | _ => .error (.malformed .payloadNotObject)

/-- The time of the tree under its field. -/
def timestampOf : Json → Except RecordError Timestamp
  | .number numeral =>
      match Decimal.ofNumeral numeral with
      | .error _ => .error .invalidTimestamp
      | .ok x =>
          match x.toUnsigned? with
          | some time => .ok (.logical (UInt64.ofNat time))
          | none => .error .invalidTimestamp
  | .string text => if text.isEmpty then .error .invalidTimestamp else .ok (.label text)
  | _ => .error .invalidTimestamp

/-- The text of the tree under a field for a key or a signature. -/
def keyTextOf (field : Field) : Json → Except RecordError KeyText
  | .string text => .ok ⟨text⟩
  | _ => .error (.malformed (.notString field))

/-- The record of a tree.  `keep` says which of several members with one key
counts. -/
def ofJson (keep : Sorted.Occurrence) (json : Json) : Except RecordError Record := do
  match json with
  | .object members =>
      let fields := Sorted.collect keep members
      match fields.find? fun (key, _) => !Field.all.any (·.name = key) with
      | some (key, _) => .error (.unexpectedField key)
      | none =>
          let payload ← fieldOf fields .payload
          let createdAt ← fieldOf fields .createdAt
          let signerKey ← fieldOf fields .signerKey
          let signature ← fieldOf fields .signature
          let payload ← payloadOf keep payload
          let createdAt ← timestampOf createdAt
          let signerKey ← keyTextOf .signerKey signerKey
          let signature ← keyTextOf .signature signature
          .ok ⟨payload, createdAt, signerKey, signature⟩
  | _ => .error (.malformed .notObject)

/-- The record of a document that is text. -/
def ofText (keep : Sorted.Occurrence) (text : List Char) : Except RecordError Record :=
  match Json.readGuarded text with
  | .error cause => .error (.malformed (.reading cause))
  | .ok _ =>
      match Json.readPlain text with
      | .error cause => .error (.malformed (.reading cause))
      | .ok json => ofJson keep json

/-- The record of a document, where `keep` says which of several members with
one key counts. -/
def parseKeeping (keep : Sorted.Occurrence) (document : List UInt8) :
    Except RecordError Record :=
  match Utf8.decode document with
  | .error cause => .error (.malformed (.encoding cause))
  | .ok text => ofText keep text

/-- The record of a document.  The last of several members with one key
counts. -/
def parse (document : List UInt8) : Except RecordError Record := parseKeeping .last document

end Record

end SignedFacts
