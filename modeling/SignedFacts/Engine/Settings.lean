import SignedFacts.Json.Fields
import SignedFacts.Text.Blank
import SignedFacts.Value.Basic

/-!
# Settings

What can be set about rounds.  Settings are read from a JSON text or from named
variables, and what is not given has its default.

In a text the settings stand inside `sync`.  A key beside `sync` is refused, and
so is a repeated one.  Inside `sync` a key that is not known is passed over.  A
variable that does not read as a number is ignored.
-/

namespace SignedFacts

/-- What can be set about rounds. -/
structure Settings where
  /-- How long a fetch may take, in milliseconds. -/
  fetchTimeout : Nat := 10000
  /-- How many octets an answer may have. -/
  maxResponseOctets : Nat := 4 * 1024 * 1024
  /-- How many documents an answer may hold. -/
  maxRecords : Nat := 10000
  /-- The path below the URL of a peer that serves records. -/
  recordsPath : String := "/records"
  /-- The name under which records are asked for. -/
  userAgent : String := "truth-kernel/0.1.0"
  deriving DecidableEq, Repr

/-- One of the settings. -/
inductive Setting where
  /-- How long a fetch may take. -/
  | fetchTimeout
  /-- How many octets an answer may have. -/
  | maxResponseOctets
  /-- How many documents an answer may hold. -/
  | maxRecords
  /-- The path that serves records. -/
  | recordsPath
  /-- The name under which records are asked for. -/
  | userAgent
  deriving DecidableEq, Repr

namespace Setting

/-- The settings in the order in which a list gives them. -/
def all : List Setting := [fetchTimeout, maxResponseOctets, maxRecords, recordsPath, userAgent]

/-- The key of a setting. -/
def name : Setting → String
  | fetchTimeout => "fetch_timeout_ms"
  | maxResponseOctets => "max_response_bytes"
  | maxRecords => "max_records_per_response"
  | recordsPath => "records_path"
  | userAgent => "user_agent"

/-- The setting with a key. -/
def ofName? (name : String) : Option Setting := all.find? (·.name = name)

end Setting

namespace Settings

/-- Which lines of the log are let through unless someone asks for others. -/
def logFilter : String := "info"

/-! ## Text -/

/-- The settings about rounds as a value. -/
def syncValue (settings : Settings) : Value :=
  .mapping [
    ("fetch_timeout_ms", .number (.ofInt settings.fetchTimeout)),
    ("max_records_per_response", .number (.ofInt settings.maxRecords)),
    ("max_response_bytes", .number (.ofInt settings.maxResponseOctets)),
    ("records_path", .string settings.recordsPath),
    ("user_agent", .string settings.userAgent)]

/-- The settings as a value. -/
def toValue (settings : Settings) : Value := .mapping [("sync", settings.syncValue)]

/-! ## Reading a text -/

/-- Reads the value of a setting. -/
def readSetting (setting : Setting) : Json.FieldReader Settings := fun settings text =>
  match setting with
  | .fetchTimeout => (Json.readCount "u64" text).map fun (n, rest) =>
      ({ settings with fetchTimeout := n }, rest)
  | .maxResponseOctets => (Json.readCount "usize" text).map fun (n, rest) =>
      ({ settings with maxResponseOctets := n }, rest)
  | .maxRecords => (Json.readCount "usize" text).map fun (n, rest) =>
      ({ settings with maxRecords := n }, rest)
  | .recordsPath => (Json.readString text).map fun (s, rest) =>
      ({ settings with recordsPath := s }, rest)
  | .userAgent => (Json.readString text).map fun (s, rest) =>
      ({ settings with userAgent := s }, rest)

/-- Settings on the way, with the keys that have been given. -/
structure Draft where
  /-- The settings. -/
  settings : Settings
  /-- The keys. -/
  given : List String

/-- Reads a member inside `sync`. -/
def readSyncMember (bound : Nat) (key : String) : Json.FieldReader Draft := fun draft text =>
  match Setting.ofName? key with
  | none => do
      let text ← Json.readColon text
      let text ← Json.skipField bound text
      .ok (draft, text)
  | some setting =>
      if draft.given.contains key then .error (.repeatedField key)
      else do
        let text ← Json.readColon text
        let (settings, text) ← readSetting setting draft.settings text
        .ok (⟨settings, key :: draft.given⟩, text)

/-- Reads what stands inside `sync`. -/
def readSync (bound : Nat) : Json.FieldReader Settings := fun settings text =>
  let inOrder := Setting.all.map fun setting (draft : Draft) text =>
    (readSetting setting draft.settings text).map fun (settings, rest) =>
      (⟨settings, draft.given⟩, rest)
  (Json.readFields "struct SyncConfig" (readSyncMember bound) inOrder bound ⟨settings, []⟩
    text).map fun (draft, rest) => (draft.settings, rest)

/-- Reads a member beside `sync`, or `sync` itself. -/
def readMember (bound : Nat) (key : String) : Json.FieldReader Draft := fun draft text =>
  if key = "sync" then
    if draft.given.contains key then .error (.repeatedField key)
    else do
      let text ← Json.readColon text
      let (settings, text) ← readSync bound draft.settings text
      .ok (⟨settings, key :: draft.given⟩, text)
  else .error (.unknownField key "sync")

/-- Reads settings from a text. -/
def parse (text : String) : Except Json.ReadError Settings := do
  let characters := text.toList
  let bound := characters.length + 1
  let inOrder : List (Json.FieldReader Draft) := [fun draft text =>
    (readSync bound draft.settings text).map fun (settings, rest) => (⟨settings, []⟩, rest)]
  let (draft, rest) ←
    Json.readFields "struct EngineConfig" (readMember bound) inOrder bound ⟨{}, []⟩ characters
  if (Json.skipSpace rest).isEmpty then .ok draft.settings else .error .trailingCharacters

/-! ## Reading variables -/

/-- The unsigned integer of 64 bits that a text spells, with blanks around it
and perhaps a plus sign. -/
def countOfText? (text : String) : Option Nat :=
  let unsigned :=
    match Text.trimChars text.toList with
    | '+' :: rest => rest
    | characters => characters
  match Numeral.digits? unsigned with
  | none => none
  | some digits =>
      let n := Nat.ofDigitChars 10 digits 0
      if n < UInt64.size then some n else none

/-- The defaults with what variables give in their place. -/
def ofVariables (lookup : String → Option String) : Settings :=
  let count (name : String) (default : Nat) : Nat :=
    ((lookup name).bind countOfText?).getD default
  let defaults : Settings := {}
  { defaults with
    fetchTimeout := count "TRUTH_KERNEL_FETCH_TIMEOUT_MS" defaults.fetchTimeout
    maxResponseOctets := count "TRUTH_KERNEL_MAX_RESPONSE_BYTES" defaults.maxResponseOctets
    maxRecords := count "TRUTH_KERNEL_MAX_RECORDS" defaults.maxRecords
    recordsPath := (lookup "TRUTH_KERNEL_RECORDS_PATH").getD defaults.recordsPath }

end Settings

end SignedFacts
