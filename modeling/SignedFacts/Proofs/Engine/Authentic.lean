import SignedFacts.Proofs.Engine.Calls
import SignedFacts.Proofs.Record.RoundTrip

/-!
# What an engine holds

An engine is called from outside in two ways.  A document is handed in, or a round
is asked for, and nothing is known of the document nor of what the peer answers.
Whatever the calls, every entry of the store stands under the id of its payload
and carries a signature that has been verified (`run_authentic`).

The invariant is `Authentic`.  One call keeps it (`Authentic.perform`), and so does
a sequence of calls.
-/

namespace SignedFacts

namespace Engine

/-! ## Calls -/

/-- A call from outside. -/
inductive Call where
  /-- A document is handed in. -/
  | ingest (document : List UInt8)
  /-- A round is asked for.  The transport answers as it does while the round
  lasts. -/
  | pull (url : String) (transport : Transport)

/-- The engine after a call. -/
def perform (call : Call) (engine : Engine) : Engine :=
  match call with
  | .ingest document => (engine.ingest document).2
  | .pull url transport => ({ engine with transport := transport }.pull url).2

/-- The engine after some calls. -/
def run : List Call → Engine → Engine
  | [], engine => engine
  | call :: calls, engine => run calls (engine.perform call)

/-- The records that an engine makes of what comes in with a call. -/
def processedIn (call : Call) (engine : Engine) : List Record :=
  match call with
  | .ingest document => (Record.parse document).toOption.toList
  | .pull url transport =>
      match { engine with transport := transport }.received url with
      | .ok documents => documents.filterMap fun document =>
          (Record.parse (Utf8.encode document)).toOption
      | .error _ => []

/-- The records that an engine makes of what comes in with some calls. -/
def processed : List Call → Engine → List Record
  | [], _ => []
  | call :: calls, engine => engine.processedIn call ++ processed calls (engine.perform call)

/-! ## Entries -/

/-- An entry stands under the id of its record, and the verifier accepts the
signature. -/
def Attested (id : RecordId) (entry : Entry) : Prop :=
  id = entry.record.id ∧ entry.record.check Ed25519.verify = .valid

/-- An engine verifies signatures strictly, and holds attested records from among
those it has seen. -/
structure Authentic (seen : List Record) (engine : Engine) : Prop where
  verifier : engine.verifier = Ed25519.verify
  usable : engine.storeFault = none
  held : ∀ id entry, engine.store.find? id = some entry →
    Attested id entry ∧ entry.record ∈ seen

theorem authentic_new (settings : Settings) : Authentic [] (Engine.new settings) :=
  ⟨rfl, rfl, nofun⟩

section Step

variable {seen : List Record} {engine : Engine}

theorem Authentic.mono {later : List Record} (authentic : Authentic seen engine)
    (among : seen ⊆ later) : Authentic later engine :=
  ⟨authentic.verifier, authentic.usable, fun id entry held =>
    ⟨(authentic.held id entry held).1, among (authentic.held id entry held).2⟩⟩

theorem Authentic.ingest (authentic : Authentic seen engine) (document : List UInt8) :
    Authentic (seen ++ (Record.parse document).toOption.toList) (engine.ingest document).2 := by
  have same := sameSetup_ingest engine document
  refine ⟨same.verifier.trans authentic.verifier, same.storeFault.trans authentic.usable, ?_⟩
  intro id entry held
  rcases entry_of_ingest authentic.usable held with before | ⟨parsed, valid, same, _⟩
  · obtain ⟨attested, among⟩ := authentic.held id entry before
    exact ⟨attested, List.mem_append_left _ among⟩
  · rw [parsed]
    exact ⟨⟨same.symm, authentic.verifier ▸ valid⟩, List.mem_append_right _ (.head _)⟩

theorem Authentic.pull (authentic : Authentic seen engine) (url : String) (transport : Transport) :
    Authentic (seen ++ engine.processedIn (.pull url transport))
      ({ engine with transport := transport }.pull url).2 := by
  have same := (@pull_spec { engine with transport := transport } url authentic.usable).1
  refine ⟨same.verifier.trans authentic.verifier, same.storeFault.trans authentic.usable, ?_⟩
  intro id entry held
  rcases @entry_of_pull { engine with transport := transport } _ _ _ authentic.usable held with
    before | ⟨texts, received, document, given, parsed, valid, same⟩
  · obtain ⟨attested, among⟩ := authentic.held id entry before
    exact ⟨attested, List.mem_append_left _ among⟩
  · refine ⟨⟨same.symm, authentic.verifier ▸ valid⟩, List.mem_append_right _ ?_⟩
    rw [processedIn, received]
    exact List.mem_filterMap.2 ⟨document, given, by rw [parsed]; rfl⟩

/-- A call keeps the invariant. -/
theorem Authentic.perform (authentic : Authentic seen engine) (call : Call) :
    Authentic (seen ++ engine.processedIn call) (engine.perform call) := by
  cases call with
  | ingest document => exact authentic.ingest document
  | pull url transport => exact authentic.pull url transport

theorem Authentic.run (authentic : Authentic seen engine) (calls : List Call) :
    Authentic (seen ++ engine.processed calls) (engine.run calls) := by
  induction calls generalizing seen engine with
  | nil => exact authentic.mono (List.subset_append_left _ _)
  | cons call calls induction =>
      rw [processed, ← List.append_assoc]
      exact induction (authentic.perform call)

end Step

/-! ## Runs -/

/-- The hash behind ids does not collide on the payloads of some records. -/
def CollisionFree (records : List Record) : Prop :=
  ∀ r ∈ records, ∀ s ∈ records,
    Blake3.hash (RecordId.marker ++ r.signedMessage)
        = Blake3.hash (RecordId.marker ++ s.signedMessage) →
      RecordId.marker ++ r.signedMessage = RecordId.marker ++ s.signedMessage

theorem CollisionFree.payload_eq {records : List Record} (free : CollisionFree records)
    {r s : Record} (first : r ∈ records) (second : s ∈ records) (same : r.id = s.id) :
    r.signedMessage = s.signedMessage ∧ r.payload = s.payload := by
  have messages : r.signedMessage = s.signedMessage :=
    List.append_cancel_left (free r first s second (congrArg RecordId.octets same))
  exact ⟨messages, Payload.eq_of_octets_eq messages⟩

theorem check_eq_valid_iff {verifier : Verifier} {record : Record} :
    record.check verifier = .valid
      ↔ ∃ key signature, record.signerKey.decode? = some key
        ∧ record.signature.decode? = some signature
        ∧ verifier record.signedMessage signature key = true := by
  rw [Record.check.eq_def]
  cases record.signerKey.decode? with
  | none => simp
  | some key => cases record.signature.decode? <;> simp

/-- After any calls, every entry of a new engine stands under the id of its
payload and carries a signature that holds.  If the hash does not collide on what
was processed, records with one id have one payload, in the store and outside. -/
theorem run_authentic (settings : Settings) (calls : List Call) :
    (∀ id entry, ((Engine.new settings).run calls).store.find? id = some entry →
      id = entry.record.id ∧ id = .derive (Utf8.octets entry.record.payload.chars)
        ∧ ∃ key signature, entry.record.signerKey.decode? = some key
          ∧ entry.record.signature.decode? = some signature
          ∧ Ed25519.verify (Utf8.octets entry.record.payload.chars) signature key = true)
    ∧ (CollisionFree ((Engine.new settings).processed calls) →
      ∀ r ∈ (Engine.new settings).processed calls,
        (∀ s ∈ (Engine.new settings).processed calls, r.id = s.id →
          r.signedMessage = s.signedMessage ∧ r.payload = s.payload)
        ∧ ∀ entry, ((Engine.new settings).run calls).store.find? r.id = some entry →
          entry.record.payload = r.payload) := by
  have authentic := (authentic_new settings).run calls
  rw [List.nil_append] at authentic
  constructor
  · intro id entry held
    obtain ⟨⟨rfl, valid⟩, _⟩ := authentic.held id entry held
    exact ⟨rfl, rfl, check_eq_valid_iff.1 valid⟩
  · intro free r processed
    refine ⟨fun s other => free.payload_eq processed other, fun entry held => ?_⟩
    obtain ⟨⟨same, _⟩, among⟩ := authentic.held _ entry held
    exact (free.payload_eq among processed same.symm).2

/-! ## A signed record -/

/-- A record whose signature holds. -/
def signedRecord : Record :=
  ⟨⟨[("a", .number (.ofInt 1))], by decide⟩, .logical 1,
    ⟨"8a88e3dd7409f195fd52db2d3cba5d72ca6709bf1d94121bf3748801b40f6f5c"⟩,
    ⟨"KNX5GuHH4f5ofw1r7L0Qk6vocukKYiRfK52bXidS2LKWDjak/QJYV0Jr6fB4cw7TqdzePQL9MHYoOxe14O+XBA=="⟩⟩

set_option maxRecDepth 100000 in
theorem check_signedRecord : signedRecord.check Ed25519.verify = .valid := by decide +kernel

theorem parse_signedRecord : Record.parse (Utf8.octets signedRecord.chars) = .ok signedRecord :=
  Record.parse_chars (by decide) (by decide) (by decide)

theorem length_signedRecord :
    (Utf8.octets (Response.ofRecords [signedRecord])).length ≤ 4 * 1024 * 1024 := by
  decide +kernel

/-- An engine that takes in a signed record holds it. -/
theorem find?_ingest_signedRecord {engine : Engine} (usable : engine.storeFault = none)
    (strict : engine.verifier = Ed25519.verify)
    (free : engine.store.find? signedRecord.id = none) :
    (engine.ingest (Utf8.octets signedRecord.chars)).2.store.find? signedRecord.id
      = some ⟨signedRecord, .here, engine.clock.now + 1⟩ := by
  rw [find?_ingest usable parse_signedRecord, free, strict, if_pos ⟨check_signedRecord, rfl⟩]
  rfl

/-! ## Records that are not signed -/

/-- The signed record with another signature, which cannot be decoded. -/
def unsigned : Record := { signedRecord with signature := ⟨"s"⟩ }

theorem parse_unsigned : Record.parse (Utf8.octets unsigned.chars) = .ok unsigned :=
  Record.parse_chars (by decide) (by decide) (by decide)

/-- The same record with another payload, where the number stands inside a list. -/
def unsignedList : Record :=
  { unsigned with payload := ⟨[("a", .sequence [.number (.ofInt 1)])], by decide⟩ }

theorem parse_unsignedList : Record.parse (Utf8.octets unsignedList.chars) = .ok unsignedList :=
  Record.parse_chars (by decide) (by decide) (by decide)

/-- Documents with all three records are handed in. -/
def threeCalls : List Call :=
  [.ingest (Utf8.octets signedRecord.chars), .ingest (Utf8.octets unsigned.chars),
    .ingest (Utf8.octets unsignedList.chars)]

theorem processed_threeCalls (engine : Engine) :
    engine.processed threeCalls = [signedRecord, unsigned, unsignedList] := by
  rw [threeCalls, processed, processed, processed, processed, processedIn, processedIn, processedIn,
    parse_signedRecord, parse_unsigned, parse_unsignedList]
  rfl

/-- Of the three messages two are the same, and the third has another hash. -/
theorem collisionFree_threeCalls : CollisionFree [signedRecord, unsigned, unsignedList] := by
  rw [CollisionFree]
  decide +kernel

theorem run_authentic_signedRecord :
    (∃ entry, ((Engine.new {}).run threeCalls).store.find? signedRecord.id = some entry
        ∧ entry.record = signedRecord ∧ entry.record.payload = unsigned.payload)
      ∧ (∃ key signature, signedRecord.signerKey.decode? = some key
        ∧ signedRecord.signature.decode? = some signature
        ∧ Ed25519.verify (Utf8.octets signedRecord.payload.chars) signature key = true)
      ∧ signedRecord.id = unsigned.id ∧ signedRecord.payload = unsigned.payload
      ∧ signedRecord.id ≠ unsignedList.id := by
  obtain ⟨attested, agree⟩ := run_authentic {} threeCalls
  rw [processed_threeCalls] at agree
  -- The two documents that come later do not change the entry.
  have held : ((Engine.new {}).run threeCalls).store.find? signedRecord.id
      = some ⟨signedRecord, .here, (Engine.new {}).clock.now + 1⟩ := by
    have alone := @find?_ingest_signedRecord (Engine.new {}) rfl rfl (Table.find?_empty _)
    have first := (authentic_new {}).ingest (Utf8.octets signedRecord.chars)
    have second := first.ingest (Utf8.octets unsigned.chars)
    rw [threeCalls, run, run, run, run, perform, perform, perform,
      find?_ingest second.usable parse_unsignedList, find?_ingest first.usable parse_unsigned,
      alone, Option.some_or, Option.some_or]
  have same := agree collisionFree_threeCalls
  obtain ⟨payloads, stored⟩ := same unsigned (by simp)
  refine ⟨⟨_, held, rfl, stored _ held⟩, (attested _ _ held).2.2, rfl, ?_, fun sameId => ?_⟩
  · exact (payloads signedRecord (by simp) rfl).2.symm
  · have payload := ((same signedRecord (by simp)).1 unsignedList (by simp) sameId).2
    exact absurd payload (by decide)

end Engine

end SignedFacts
