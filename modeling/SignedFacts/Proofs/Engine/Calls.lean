import SignedFacts.Engine.Basic
import SignedFacts.Proofs.Peer.Round

/-!
# What calls do to an engine

A round comes down to the documents it receives (`Engine.received`).  If it receives
any, it merges the valid ones into the store (`pull_of_received`).  If it fails, only
its peer takes notice (`pull_of_missing`), or nobody, when the URL is blank
(`pull_of_blank`).  A document that is handed in is merged alone (`find?_ingest`).
Nothing else about an engine that matters to its records is changed by either
(`Engine.SameSetup`).
-/

namespace SignedFacts

namespace Engine

/-! ## Rounds -/

/-- The documents that a round receives. -/
def received (url : String) (engine : Engine) : Except RoundError (List String) :=
  let peer := Text.trim url
  if peer.isEmpty then .error (.invalidUrl url)
  else
    let answer := engine.transport.answerFor peer
    (await engine.settings.fetchTimeout answer.delay
      (answer.result engine.settings.maxResponseOctets)).bind fun body =>
        Response.split body engine.settings.maxRecords

/-- Two engines with the same settings, the same verifier and stores that both can
be used. -/
structure SameSetup (engine other : Engine) : Prop where
  settings : other.settings = engine.settings
  verifier : other.verifier = engine.verifier
  storeFault : other.storeFault = engine.storeFault

theorem SameSetup.refl (engine : Engine) : engine.SameSetup engine := ⟨rfl, rfl, rfl⟩

/-- The valid envelopes among documents, if there are any documents. -/
def admitted (verifier : Verifier) (documents : Except RoundError (List String)) : List Envelope :=
  match documents with
  | .ok documents => Round.valid (documents.map (Round.judge verifier))
  | .error _ => []

theorem mem_admitted_iff {verifier : Verifier} {documents : Except RoundError (List String)}
    {envelope : Envelope} :
    envelope ∈ admitted verifier documents
      ↔ ∃ texts, documents = .ok texts ∧ ∃ document ∈ texts, ∃ record,
        Record.parse (Utf8.encode document) = .ok record ∧ record.check verifier = .valid
          ∧ envelope = (Envelope.ofRecord record).verify verifier := by
  rw [admitted.eq_def]
  cases documents with
  | error => simp
  | ok texts => simp [Round.mem_valid_iff]

/-- A blank URL is refused before anything happens. -/
theorem pull_of_blank {engine : Engine} {url : String} (blank : Text.trim url = "") :
    engine.pull url = (.error (.invalidUrl url), engine) := by
  have empty : (Text.trim url).isEmpty = true := String.isEmpty_iff.2 blank
  simp only [pull, begin, empty, if_true]

theorem isPeerFault_of_await {timeout delay : Nat} {result : Except FetchError (List UInt8)}
    {error : RoundError} (failed : await timeout delay result = .error error) :
    error.isPeerFault = true := by
  rw [await.eq_def] at failed
  split at failed
  next =>
    cases failed
    rfl
  next =>
    cases result <;> cases failed
    rfl

theorem isPeerFault_of_split {body : List UInt8} {limit : Nat} {error : RoundError}
    (failed : Response.split body limit = .error error) : error.isPeerFault = true := by
  rw [Response.split] at failed
  split at failed
  next =>
    cases failed
    rfl
  next =>
    split at failed <;> cases failed
    rfl

/-- A round that receives no documents is noted with its peer, and so is its reason. -/
theorem pull_of_missing {engine : Engine} {url : String} {error : RoundError}
    (filled : Text.trim url ≠ "") (missing : engine.received url = .error error) :
    error.isPeerFault = true
      ∧ engine.pull url = (.error error, { engine with
          peers := (engine.peers.register (Text.trim url)).recordFailure (Text.trim url)
            error.message
          transport := engine.transport.count (Text.trim url) }) := by
  have named : (Text.trim url).isEmpty = false :=
    Bool.eq_false_iff.2 (mt String.isEmpty_iff.1 filled)
  simp only [received, named, Bool.false_eq_true, if_false] at missing
  simp only [pull, begin, named, Bool.false_eq_true, if_false, Transport.fetch, finish]
  cases fetched : await engine.settings.fetchTimeout _ _ with
  | error cause =>
      rw [fetched] at missing
      cases missing
      have fault := isPeerFault_of_await fetched
      exact ⟨fault, by simp only [Except.bind, fault, if_true]⟩
  | ok body =>
      rw [fetched] at missing
      have cut : Response.split body engine.settings.maxRecords = .error error := missing
      have fault := isPeerFault_of_split cut
      exact ⟨fault, by simp only [Except.bind, takeIn, cut, fault, if_true]⟩

/-- A round that receives documents asks the store first. -/
theorem pull_of_arrived {engine : Engine} {url : String} {documents : List String}
    (arrived : engine.received url = .ok documents) :
    engine.pull url
      = match engine.storeFault with
        | some fault => (.error (.store fault), { engine with
            peers := engine.peers.register (Text.trim url)
            transport := engine.transport.count (Text.trim url) })
        | none =>
            let taken := Round.takeIn engine.verifier (Text.trim url) documents engine.store
              engine.clock
            (.ok taken.1, { engine with
              store := taken.2.1
              clock := taken.2.2.tick.2
              peers := (engine.peers.register (Text.trim url)).recordSuccess (Text.trim url)
                taken.2.2.tick.1
              transport := engine.transport.count (Text.trim url) }) := by
  simp only [received] at arrived
  split at arrived
  next => cases arrived
  next named =>
    simp only [pull, begin, named, Bool.false_eq_true, if_false, Transport.fetch, finish]
    cases fetched : await engine.settings.fetchTimeout _ _ with
    | error cause =>
        rw [fetched] at arrived
        cases arrived
    | ok body =>
        rw [fetched] at arrived
        have cut : Response.split body engine.settings.maxRecords = .ok documents := arrived
        cases usable : engine.storeFault with
        | none => simp only [Except.bind, takeIn, cut]
        | some fault => simp [Except.bind, takeIn, cut, RoundError.isPeerFault]

/-- A round that receives documents takes them in, and that takes a tick. -/
theorem pull_of_received {engine : Engine} {url : String} {documents : List String}
    (usable : engine.storeFault = none) (arrived : engine.received url = .ok documents) :
    engine.pull url
      = (let taken := Round.takeIn engine.verifier (Text.trim url) documents engine.store
          engine.clock
        (.ok taken.1, { engine with
          store := taken.2.1
          clock := taken.2.2.tick.2
          peers := (engine.peers.register (Text.trim url)).recordSuccess (Text.trim url)
            taken.2.2.tick.1
          transport := engine.transport.count (Text.trim url) })) := by
  rw [pull_of_arrived arrived, usable]

theorem pull_spec {engine : Engine} (url : String) (usable : engine.storeFault = none) :
    engine.SameSetup (engine.pull url).2
      ∧ (engine.pull url).2.store = (engine.store.mergeBatch (.peer (Text.trim url))
        (admitted engine.verifier (engine.received url)) engine.clock).2.1 := by
  cases arrived : engine.received url with
  | ok documents =>
      rw [pull_of_received usable arrived]
      exact ⟨⟨rfl, rfl, rfl⟩, rfl⟩
  | error error =>
      by_cases blank : Text.trim url = ""
      · rw [pull_of_blank blank]
        exact ⟨.refl engine, rfl⟩
      · rw [(pull_of_missing blank arrived).2]
        exact ⟨⟨rfl, rfl, rfl⟩, rfl⟩

/-- An entry after a round was there before or is a valid document that has been
received. -/
theorem entry_of_pull {engine : Engine} {url : String} {id : RecordId} {entry : Entry}
    (usable : engine.storeFault = none) (held : (engine.pull url).2.store.find? id = some entry) :
    engine.store.find? id = some entry
      ∨ ∃ texts, engine.received url = .ok texts ∧ ∃ document ∈ texts,
        Record.parse (Utf8.encode document) = .ok entry.record
          ∧ entry.record.check engine.verifier = .valid ∧ entry.record.id = id := by
  rw [(pull_spec url usable).2] at held
  rcases Store.find?_mergeBatch held with before | ⟨envelope, member, _, taken, same, _⟩
  · exact .inl before
  · obtain ⟨texts, received, document, given, record, parsed, valid, rfl⟩ :=
      mem_admitted_iff.1 member
    obtain rfl : record = entry.record := taken
    exact .inr ⟨texts, received, document, given, parsed, valid, same⟩

/-! ## Documents handed in -/

theorem ingest_error {engine : Engine} {document : List UInt8} {cause : RecordError}
    (refused : Record.parse document = .error cause) :
    engine.ingest document = (.error (.parse cause), engine) := by
  rw [ingest, refused]

theorem sameSetup_ingest (engine : Engine) (document : List UInt8) :
    engine.SameSetup (engine.ingest document).2 := by
  rw [ingest.eq_def]
  split
  next => exact .refl engine
  next =>
    split
    next => exact .refl engine
    next => exact ⟨rfl, rfl, rfl⟩

/-- A document that is a record is merged with what the verifier says of it. -/
theorem ingest_record {engine : Engine} {document : List UInt8} {record : Record}
    (usable : engine.storeFault = none) (parsed : Record.parse document = .ok record) :
    engine.ingest document
      = (let envelope := (Envelope.ofRecord record).verify engine.verifier
        let merged := engine.store.merge envelope .here engine.clock
        (.ok ⟨record.id, merged.1⟩, { engine with store := merged.2.1, clock := merged.2.2 })) := by
  simp only [ingest, parsed, usable]

/-- A document is inserted if it is a record whose signature holds and whose id is
free. -/
theorem ingest_inserted_iff {engine : Engine} {document : List UInt8} {id : RecordId}
    (usable : engine.storeFault = none) :
    (engine.ingest document).1 = .ok ⟨id, .inserted⟩
      ↔ ∃ record, Record.parse document = .ok record ∧ record.check engine.verifier = .valid
        ∧ record.id = id ∧ engine.store.find? id = none := by
  cases parsed : Record.parse document with
  | error cause => simp [ingest_error parsed]
  | ok record =>
      rw [ingest_record usable parsed]
      simp only [Except.ok.injEq, Ingested.mk.injEq, Store.merge_eq_inserted_iff,
        Envelope.isValid_iff, Envelope.record_verify, exists_eq_left']
      constructor
      · rintro ⟨rfl, valid, free⟩
        exact ⟨valid, rfl, free⟩
      · rintro ⟨valid, rfl, free⟩
        exact ⟨rfl, valid, free⟩

/-- A document that is a record adds its record under a free id, if the signature
holds. -/
theorem find?_ingest {engine : Engine} {document : List UInt8} {record : Record} {id : RecordId}
    (usable : engine.storeFault = none) (parsed : Record.parse document = .ok record) :
    (engine.ingest document).2.store.find? id
      = (engine.store.find? id).or (if record.check engine.verifier = .valid ∧ record.id = id
          then some ⟨record, .here, engine.clock.now + 1⟩ else none) := by
  rw [ingest_record usable parsed]
  simp only [Store.find?_merge, Envelope.isValid_iff, Envelope.record_verify]

/-- An entry after a document was handed in was there before or is the document, if
this is valid and its id was free. -/
theorem entry_of_ingest {engine : Engine} {document : List UInt8} {id : RecordId} {entry : Entry}
    (usable : engine.storeFault = none)
    (held : (engine.ingest document).2.store.find? id = some entry) :
    engine.store.find? id = some entry
      ∨ Record.parse document = .ok entry.record
        ∧ entry.record.check engine.verifier = .valid ∧ entry.record.id = id
        ∧ engine.store.find? id = none := by
  cases parsed : Record.parse document with
  | error cause =>
      rw [ingest_error parsed] at held
      exact .inl held
  | ok record =>
      rw [find?_ingest usable parsed, Option.or_eq_some_iff] at held
      refine held.imp_right fun ⟨free, added⟩ => ?_
      split at added
      next fits =>
        cases added
        exact ⟨rfl, fits.1, fits.2, free⟩
      next => cases added

end Engine

end SignedFacts
