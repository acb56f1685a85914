import SignedFacts.Proofs.Engine.Completion
import SignedFacts.Proofs.Peer.Registry
import SignedFacts.Proofs.Record.Portable

/-!
# What engines pass on to each other

An engine that has taken in documents without reserved keys, and answers of other
such engines, holds genuine records only (`Holds.ingest`, `Holds.receive`).  These
can be passed on: an engine that receives what another one serves holds the ids of
all the records served (`find?_receive`).
-/

namespace SignedFacts

/-- A record whose id is known and whose signature holds, and whose canonical text is
read as the record. -/
structure Record.Genuine (known : RecordId → Prop) (record : Record) : Prop where
  known : known record.id
  valid : record.check Ed25519.verify = .valid
  portable : Record.parse (Utf8.octets record.chars) = .ok record

theorem Record.Genuine.mono {known more : RecordId → Prop} {record : Record}
    (genuine : record.Genuine known) (wider : ∀ id, known id → more id) : record.Genuine more :=
  ⟨wider _ genuine.known, genuine.valid, genuine.portable⟩

theorem Record.Genuine.parse_text {known : RecordId → Prop} {record : Record}
    (genuine : record.Genuine known) : Record.parse (Utf8.encode record.text) = .ok record :=
  Round.record?_eq_some_iff.1 (Round.record?_text genuine.portable)

namespace Engine

/-- The transport of an engine with these octets for the answer from a URL. -/
def answering (url : String) (body : List UInt8) (engine : Engine) : Transport :=
  engine.transport.respond (Text.trim url) (.body body)

/-- The engine after a round in which the peer answers with these octets. -/
def receive (url : String) (body : List UInt8) (engine : Engine) : Engine :=
  engine.perform (.pull url (engine.answering url body))

/-- An answer from a URL keeps to what an engine allows. -/
structure Allows (url : String) (body : List UInt8) (engine : Engine) : Prop where
  url : Text.trim url ≠ ""
  size : body.length ≤ engine.settings.maxResponseOctets
  count : ∀ documents, Response.elementsOf body = .ok documents →
    documents.length ≤ engine.settings.maxRecords

/-- An engine checks signatures strictly and holds genuine records, each under its
id. -/
structure Holds (known : RecordId → Prop) (engine : Engine) : Prop where
  verifier : engine.verifier = Ed25519.verify
  usable : engine.storeFault = none
  held : ∀ id entry, engine.store.find? id = some entry →
    entry.record.id = id ∧ entry.record.Genuine known

theorem holds_new {known : RecordId → Prop} (settings : Settings) :
    Holds known (Engine.new settings) :=
  ⟨rfl, rfl, nofun⟩

section Exchange

variable {known : RecordId → Prop} {engine : Engine}

theorem Holds.mono {more : RecordId → Prop} (holds : Holds known engine)
    (wider : ∀ id, known id → more id) : Holds more engine :=
  ⟨holds.verifier, holds.usable, fun id entry held =>
    ⟨(holds.held id entry held).1, (holds.held id entry held).2.mono wider⟩⟩

/-! ## Documents handed in -/

theorem grows_ingest (usable : engine.storeFault = none) (document : List UInt8) :
    engine.store.Grows (engine.ingest document).2.store := by
  cases parsed : Record.parse document with
  | error cause =>
      rw [ingest_error parsed]
      exact .refl engine.store
  | ok record =>
      rw [ingest_record usable parsed]
      exact Store.grows_merge

/-- An id that has been inserted is held. -/
theorem find?_of_inserted {document : List UInt8} {id : RecordId}
    (usable : engine.storeFault = none)
    (inserted : (engine.ingest document).1 = .ok ⟨id, .inserted⟩) :
    ∃ entry, (engine.ingest document).2.store.find? id = some entry := by
  obtain ⟨record, parsed, valid, same, free⟩ := (ingest_inserted_iff usable).1 inserted
  rw [find?_ingest usable parsed, free, if_pos ⟨valid, same⟩]
  exact ⟨_, rfl⟩

/-- A document without reserved keys adds a genuine record at most, under an id that
is inserted. -/
theorem Holds.ingest (holds : Holds known engine) {document : List UInt8}
    (plain : Record.WithoutReserved document) :
    Holds (fun id => known id ∨ (engine.ingest document).1 = .ok ⟨id, .inserted⟩)
      (engine.ingest document).2 := by
  have same := sameSetup_ingest engine document
  refine ⟨same.verifier.trans holds.verifier, same.storeFault.trans holds.usable, ?_⟩
  intro id entry held
  rcases entry_of_ingest holds.usable held with before | ⟨parsed, valid, rfl, free⟩
  · obtain ⟨same, genuine⟩ := holds.held id entry before
    exact ⟨same, genuine.mono fun _ => .inl⟩
  · have inserted := (ingest_inserted_iff holds.usable).2 ⟨_, parsed, valid, rfl, free⟩
    exact ⟨rfl, .inr inserted, holds.verifier ▸ valid, Record.parse_chars_of_parse plain parsed⟩

/-! ## What is served -/

/-- An engine serves the records it holds. -/
theorem mem_served_iff {record : Record} :
    record ∈ engine.store.entries.map Entry.record
      ↔ ∃ id entry, engine.store.find? id = some entry ∧ entry.record = record := by
  simp only [Store.entries, Table.values, List.map_map, List.mem_map, Store.find?,
    Table.find?_eq_some_iff, Prod.exists, Function.comp]

theorem Holds.genuine_served (holds : Holds known engine) :
    ∀ record ∈ engine.store.entries.map Entry.record, record.Genuine known := by
  intro record served
  obtain ⟨id, entry, held, rfl⟩ := mem_served_iff.1 served
  exact (holds.held id entry held).2

section First

variable {document : List UInt8} {record : Record} (usable : engine.storeFault = none)
  (empty : engine.store = .empty) (parsed : Record.parse document = .ok record)
  (valid : record.check engine.verifier = .valid)

include usable empty parsed valid

/-- After the first record has been taken in it is served. -/
theorem served_ingest : (engine.ingest document).2.store.entries.map Entry.record = [record] := by
  have merged := @Store.merge_of_free .empty _ .here engine.clock (Envelope.isValid_iff.2 valid) rfl
  rw [ingest_record usable parsed]
  simp only [empty, merged, Store.entries_add_empty, List.map_cons, List.map_nil,
    Envelope.record_verify]

theorem exportRecords_ingest :
    (engine.ingest document).2.exportRecords = Response.ofRecords [record] := by
  rw [exportRecords, served_ingest usable empty parsed valid]

end First

/-! ## What is received -/

theorem allows_ofRecords {url : String} {records : List Record} (filled : Text.trim url ≠ "")
    (small : (Utf8.octets (Response.ofRecords records)).length ≤ engine.settings.maxResponseOctets)
    (few : records.length ≤ engine.settings.maxRecords) :
    engine.Allows url (Utf8.octets (Response.ofRecords records)) := by
  refine ⟨filled, small, fun documents listed => ?_⟩
  rw [Response.elementsOf_ofRecords] at listed
  rwa [← Except.ok.inj listed, List.length_map]

/-- An answer that is allowed arrives in a round. -/
theorem Allows.brings {url : String} {body : List UInt8} (allows : engine.Allows url body) :
    { engine with transport := engine.answering url body }.Brings url body := by
  have answer : (engine.answering url body).answerFor (Text.trim url) = .body body :=
    Transport.answerFor_respond
  exact ⟨allows.url, by rw [answer]; rfl, by rw [answer]; exact Nat.zero_le _, allows.size⟩

theorem receive_spec (usable : engine.storeFault = none) {url : String} {body : List UInt8}
    (allows : engine.Allows url body) :
    engine.SameSetup (engine.receive url body)
      ∧ (engine.receive url body).store = (engine.store.mergeBatch (.peer (Text.trim url))
        (admitted engine.verifier (Response.split body engine.settings.maxRecords))
        engine.clock).2.1 := by
  obtain ⟨same, store⟩ :=
    @pull_spec { engine with transport := engine.answering url body } url usable
  rw [allows.brings.received] at store
  rw [receive, perform]
  exact ⟨⟨same.settings, same.verifier, same.storeFault⟩, store⟩

theorem grows_receive (usable : engine.storeFault = none) {url : String} {body : List UInt8}
    (allows : engine.Allows url body) :
    engine.store.Grows (engine.receive url body).store := by
  rw [(receive_spec usable allows).2]
  exact Store.grows_mergeBatch

section Served

variable {url : String} {records : List Record}
  (allows : engine.Allows url (Utf8.octets (Response.ofRecords records)))
  (genuine : ∀ record ∈ records, record.Genuine known)

include allows

theorem split_served : Response.split (Utf8.octets (Response.ofRecords records))
    engine.settings.maxRecords = .ok (records.map Record.text) := by
  have few := allows.count _ (Response.elementsOf_ofRecords records)
  rw [List.length_map] at few
  rw [Response.split_ofRecords, if_neg (Nat.not_lt.2 few)]

include genuine

/-- What is received from an engine with genuine records is genuine. -/
theorem Holds.receive (holds : Holds known engine) :
    Holds known (engine.receive url (Utf8.octets (Response.ofRecords records))) := by
  have same := (receive_spec holds.usable allows).1
  refine ⟨same.verifier.trans holds.verifier, same.storeFault.trans holds.usable, ?_⟩
  intro id entry held
  rw [Engine.receive, perform] at held
  rcases @entry_of_pull { engine with transport := engine.answering url _ } _ _ _ holds.usable
    held with before | ⟨texts, received, document, given, parsed, _, rfl⟩
  · exact holds.held id entry before
  · -- The documents are the canonical texts of the records, and each is read as its record.
    rw [allows.brings.received, split_served allows] at received
    obtain ⟨record, among, rfl⟩ := List.mem_map.1 (Except.ok.inj received ▸ given)
    rw [(genuine record among).parse_text] at parsed
    exact ⟨rfl, Except.ok.inj parsed ▸ genuine record among⟩

/-- The id of each record that is received is held. -/
theorem find?_receive (holds : Holds known engine) {record : Record} (member : record ∈ records) :
    ∃ entry, (engine.receive url (Utf8.octets (Response.ofRecords records))).store.find? record.id
      = some entry := by
  have valid := (genuine record member).valid
  have admits := mem_admitted_iff.2 ⟨_, split_served allows, _, List.mem_map_of_mem member, record,
    (genuine record member).parse_text, valid, rfl⟩
  have held := @Store.exists_find?_mergeBatch engine.store engine.clock _ (.peer (Text.trim url))
    _ admits (Envelope.isValid_iff.2 valid)
  rw [Envelope.record_verify] at held
  rwa [(receive_spec holds.usable allows).2, holds.verifier]

end Served

end Exchange

end Engine

end SignedFacts
