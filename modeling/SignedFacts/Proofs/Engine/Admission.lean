import SignedFacts.Proofs.Engine.Completion
import SignedFacts.Proofs.Json.SameTree

/-!
# Two ways in

A document can be handed in, or it can come from a peer as the only one of a list.  The
two ways read different texts: the first one the whole document, and the second one what
is left when the list is cut, which is the document without the blanks around it.  Both
spell one tree, so they are the same record (`Record.parse_of_same`).

From there on both ways ask the same verifier and the same store, so they decide alike
(`pull_single`).  The signature is checked as it is for a caller who has only
the texts of the signature and the key (`check_eq_valid_iff_verifyText`).  The stores
differ in where a new entry came from (`Store.find?_merge_origin`), and the round takes one
more tick, for itself.
-/

namespace SignedFacts

/-! ## One document -/

namespace Record

/-- Texts that spell one tree are the same record, or none. -/
theorem parse_of_same {text other : List Char} {json : Json} {record : Record}
    (padded : Json.SpellsPadded text json) (same : Json.SpellsPadded other json)
    (parsed : parse (Utf8.octets text) = .ok record) :
    parse (Utf8.octets other) = .ok record := by
  obtain ⟨whole, guarded, read, octets, first, second, converted⟩ := parse_eq_ok_iff.1 parsed
  obtain rfl := Utf8.octets_injective octets
  exact parse_eq_ok_iff.2 ⟨other, guarded, read, rfl, Json.readGuarded_of_same padded same first,
    Json.readPlain_of_same padded same second, converted⟩

end Record

namespace Response

/-- The list of one document. -/
def single (document : List UInt8) : List UInt8 := 0x5b :: document ++ [0x5d]

theorem single_octets (text : List Char) :
    single (Utf8.octets text) = Utf8.octets (join [text]) := by
  simp only [Utf8.octets, join, joinRest, List.flatMap_cons, List.flatMap_append, List.cons_append]
  rfl

/-- A document that is a record is one element of the list of it.  The element has lost
the blanks around it, and is the same record. -/
theorem elementsOf_single_of_parse {document : List UInt8} {record : Record}
    (parsed : Record.parse document = .ok record) :
    ∃ before text after, document = Utf8.octets (before ++ text ++ after)
      ∧ Json.Blank before ∧ Json.Blank after
      ∧ elementsOf (single document) = .ok [String.ofList text]
      ∧ Record.parse (Utf8.octets text) = .ok record := by
  obtain ⟨whole, guarded, _, rfl, first, _⟩ := Record.parse_eq_ok_iff.1 parsed
  obtain ⟨padded, _⟩ := Json.readGuarded_eq_ok_iff.1 first
  cases padded with
  | @mk before text after _ blank spelled blankAfter =>
      have element := elementsOf_single blank spelled blankAfter
      rw [← single_octets] at element
      have bare : Json.SpellsPadded text guarded := by
        simpa using Json.SpellsPadded.mk Json.blank_nil spelled Json.blank_nil
      exact ⟨before, text, after, rfl, blank, blankAfter, element,
        Record.parse_of_same (.mk blank spelled blankAfter) bare parsed⟩

end Response

/-! ## One envelope -/

namespace Store

variable {store : Store} {envelope : Envelope} {origin other : Origin} {clock : Clock}

/-- Where an envelope comes from makes no difference to what becomes of it, to the index
and to the clock. -/
theorem merge_origin :
    (store.merge envelope origin clock).1 = (store.merge envelope other clock).1
      ∧ (store.merge envelope origin clock).2.1.signers
        = (store.merge envelope other clock).2.1.signers
      ∧ (store.merge envelope origin clock).2.2 = (store.merge envelope other clock).2.2 := by
  rw [merge_eq, merge_eq]
  split
  next => split <;> exact ⟨rfl, rfl, rfl⟩
  next => exact ⟨rfl, rfl, rfl⟩

theorem merge_eq_rejected_iff :
    (store.merge envelope origin clock).1 = .rejected ↔ ¬ envelope.isValid = true := by
  rw [outcome_merge]
  split
  next valid => split <;> simp [valid]
  next invalid => simp [invalid]

/-- It is told of a new entry only. -/
theorem find?_merge_origin (id : RecordId) :
    (store.merge envelope origin clock).2.1.find? id
      = ((store.merge envelope other clock).2.1.find? id).map fun entry =>
        if store.contains id then entry else { entry with origin := origin } := by
  rw [find?_merge, find?_merge]
  cases held : store.find? id with
  | some entry => simp [contains_iff.2 ⟨entry, held⟩]
  | none =>
      rw [contains_eq_false_iff.2 held, Option.none_or, Option.none_or]
      split <;> rfl

end Store

/-! ## Both ways -/

namespace Engine

section Admission

variable {engine : Engine} {url : String} {record : Record}

/-- A signature that holds for an engine is one that holds by its texts. -/
theorem check_eq_valid_iff_verifyText :
    record.check Ed25519.verify = .valid
      ↔ verifyText record.signedMessage record.signature record.signerKey = true := by
  rw [Record.check.eq_def, verifyText.eq_def]
  cases record.signerKey.decode? <;> cases record.signature.decode? <;> simp

/-- What a round with one record reports. -/
def summaryOfOne (peer : String) (outcome : Outcome) : Summary where
  peer := peer
  fetched := 1
  skippedMalformed := 0
  skippedInvalid := if outcome = .rejected then 1 else 0
  inserted := if outcome = .inserted then 1 else 0
  duplicate := if outcome = .duplicate then 1 else 0
  rejected := 0

/-- What becomes of the envelope of one record. -/
theorem summaryOf_one {document : String} (spelled : Round.record? document = some record) :
    let envelope := (Envelope.ofRecord record).verify engine.verifier
    let merged := engine.store.merge envelope (.peer (Text.trim url)) engine.clock
    engine.summaryOf url [document] = summaryOfOne (Text.trim url) merged.1
      ∧ (engine.mergedFrom url [document]).2 = merged.2 := by
  intro envelope merged
  have wellFormed : Round.isMalformed document = false := by rw [Round.isMalformed, spelled]; rfl
  have outcome : merged.1 = _ := Store.outcome_merge
  by_cases valid : record.check engine.verifier = .valid
  · have admitted := (Round.isAdmitted_iff spelled).2 valid
    have holds : Round.isInvalid engine.verifier document = false := by
      simp [Round.isInvalid, spelled, valid]
    have merges : engine.mergedFrom url [document] = ([merged.1], merged.2) := by
      simp [mergedFrom, Round.submissions, Round.records, admitted, spelled, Store.mergeEach,
        merged, envelope]
    have kept : merged.1 ≠ .rejected := by
      rw [outcome, if_pos (Envelope.isValid_iff.2 valid)]
      split <;> decide
    simp [summaryOf, summaryOfOne, merges, wellFormed, holds, kept, List.count_singleton]
  · have refused := Bool.eq_false_iff.2 (mt (Round.isAdmitted_iff spelled).1 valid)
    have fails : Round.isInvalid engine.verifier document = true := by
      simp [Round.isInvalid, spelled, valid]
    have merges : engine.mergedFrom url [document] = ([], engine.store, engine.clock) := by
      simp [mergedFrom, Round.submissions, Round.records, refused, Store.mergeEach]
    have rejected : merged = (.rejected, engine.store, engine.clock) :=
      Store.merge_eq.trans (if_neg (mt Envelope.isValid_iff.1 valid))
    simp [summaryOf, summaryOfOne, merges, wellFormed, fails, rejected]

/-- A round that receives one record merges its envelope, and that takes a tick. -/
theorem pull_of_one {document : String} (usable : engine.storeFault = none)
    (arrived : engine.received url = .ok [document])
    (spelled : Round.record? document = some record) :
    engine.pull url
      = (let envelope := (Envelope.ofRecord record).verify engine.verifier
        let merged := engine.store.merge envelope (.peer (Text.trim url)) engine.clock
        (.ok (summaryOfOne (Text.trim url) merged.1), { engine with
          store := merged.2.1
          clock := merged.2.2.tick.2
          peers := (engine.peers.register (Text.trim url)).recordSuccess (Text.trim url)
            merged.2.2.tick.1
          transport := engine.transport.count (Text.trim url) })) := by
  obtain ⟨report, effect⟩ := @summaryOf_one engine url record _ spelled
  rw [pull_of_documents usable arrived, report, effect]

/-- A document that is a record is one element of a list, whatever the blanks around it, and
this element is the same record.  If the store can be used, the round with this list reports what
becomes of the document when it is handed in instead.  It is rejected exactly if its signature
does not hold, which the texts of the signature and the key tell as well.  Both ways lead to the
same entries at the same times, and only a new entry tells where it came from.  Nothing else is
different but what the round does for itself: a tick, a fetch and a note with the peer.  If the
store cannot be used, both ways say so. -/
theorem pull_single {document : List UInt8} (parsed : Record.parse document = .ok record)
    (brings : engine.Brings url (Response.single document))
    (room : 1 ≤ engine.settings.maxRecords) :
    let ingested := engine.ingest document
    let pulled := engine.pull url
    let peer := Text.trim url
    (∃ before text after, document = Utf8.octets (before ++ text ++ after)
        ∧ Json.Blank before ∧ Json.Blank after
        ∧ Response.elementsOf (Response.single document) = .ok [String.ofList text]
        ∧ Record.parse (Utf8.octets text) = .ok record)
      ∧ (∀ fault, engine.storeFault = some fault →
        ingested = (.error (.store fault), engine) ∧ pulled.1 = .error (.store fault)
          ∧ pulled.2.store = engine.store ∧ pulled.2.clock = engine.clock)
      ∧ (engine.storeFault = none → ∃ outcome,
        ingested.1 = .ok ⟨record.id, outcome⟩
          ∧ pulled.1 = .ok (summaryOfOne peer outcome)
          ∧ (outcome = .rejected ↔ record.check engine.verifier ≠ .valid)
          ∧ (engine.verifier = Ed25519.verify → (outcome = .rejected
            ↔ verifyText record.signedMessage record.signature record.signerKey = false))
          ∧ (∀ id, pulled.2.store.find? id = (ingested.2.store.find? id).map fun entry =>
            if engine.store.contains id then entry else { entry with origin := .peer peer })
          ∧ pulled.2.store.signers = ingested.2.store.signers
          ∧ pulled.2 = { ingested.2 with
            store := pulled.2.store
            clock := ⟨ingested.2.clock.now + 1⟩
            peers := (engine.peers.register peer).recordSuccess peer (ingested.2.clock.now + 1)
            transport := engine.transport.count peer }) := by
  obtain ⟨before, text, after, shape, blank, blankAfter, element, bare⟩ :=
    Response.elementsOf_single_of_parse parsed
  have arrived : engine.received url = .ok [String.ofList text] := by
    rw [brings.received, Response.split, element]
    exact if_neg (Nat.not_lt.2 room)
  intro ingested pulled peer
  refine ⟨⟨before, text, after, shape, blank, blankAfter, element, bare⟩, fun fault broken => ?_,
    fun usable => ?_⟩
  · have handed : ingested = (.error (.store fault), engine) := by
      simp only [ingested, ingest, parsed, broken]
    have failed : pulled = _ := pull_of_arrived arrived
    rw [failed, broken]
    exact ⟨handed, rfl, rfl, rfl⟩
  · have found : Round.record? (String.ofList text) = some record := by
      rw [Round.record?_eq_some_iff, Utf8.encode, String.toList_ofList]
      exact bare
    have handed : ingested = _ := ingest_record usable parsed
    have completed : pulled = _ := pull_of_one usable arrived found
    rw [handed, completed]
    dsimp only
    -- Both ways merge one envelope, from two origins.
    set envelope := (Envelope.ofRecord record).verify engine.verifier
    obtain ⟨outcome, signers, clock⟩ :=
      @Store.merge_origin engine.store envelope (.peer peer) .here engine.clock
    have rejected : (engine.store.merge envelope .here engine.clock).1 = .rejected
        ↔ record.check engine.verifier ≠ .valid := by
      rw [Store.merge_eq_rejected_iff, Envelope.isValid_iff]
    refine ⟨_, rfl, by rw [outcome], rejected, fun strict => ?_, Store.find?_merge_origin, signers,
      ?_⟩
    · rw [rejected, strict, Ne, check_eq_valid_iff_verifyText, Bool.not_eq_true]
    · rw [clock]
      rfl

end Admission

/-! ## A document with blanks around it -/

/-- The signed record with blanks around it. -/
def spaced : List UInt8 := Utf8.octets ([' '] ++ signedRecord.chars ++ ['\n'])

theorem parse_spaced : Record.parse spaced = .ok signedRecord := by
  have spelled := signedRecord.toValue.spells_chars
  have around : Json.SpellsPadded ([' '] ++ signedRecord.chars ++ ['\n']) _ :=
    .mk (List.forall_mem_singleton.2 rfl) spelled (List.forall_mem_singleton.2 rfl)
  exact Record.parse_of_same (Value.padded spelled) around parse_signedRecord

/-- An engine whose peer answers with this document alone. -/
def fedOne : Engine :=
  { Engine.new {} with
    transport := Transport.empty.respond "u" (.delayed 5 (.body (Response.single spaced))) }

/-- The document is inserted either way. -/
theorem pull_single_spaced :
    (fedOne.ingest spaced).1 = .ok ⟨signedRecord.id, .inserted⟩
      ∧ (fedOne.pull " u ").1 = .ok (summaryOfOne "u" .inserted)
      ∧ (fedOne.ingest spaced).2.store.find? signedRecord.id = some ⟨signedRecord, .here, 1⟩
      ∧ (fedOne.pull " u ").2.store.find? signedRecord.id
        = some ⟨signedRecord, .peer "u", 1⟩ := by
  have brings : fedOne.Brings " u " (Response.single spaced) :=
    ⟨by decide, rfl, by decide, by decide +kernel⟩
  obtain ⟨_, _, alike⟩ := pull_single parse_spaced brings (by decide)
  obtain ⟨outcome, handed, report, _, _, held, _⟩ := alike rfl
  have inserted : (fedOne.ingest spaced).1 = .ok ⟨signedRecord.id, .inserted⟩ :=
    (ingest_inserted_iff rfl).2 ⟨_, parse_spaced, check_signedRecord, rfl, rfl⟩
  have entry : (fedOne.ingest spaced).2.store.find? signedRecord.id
      = some ⟨signedRecord, .here, 1⟩ := by
    rw [find?_ingest rfl parse_spaced]
    exact congrArg (Option.or none) (if_pos ⟨check_signedRecord, rfl⟩)
  rw [inserted] at handed
  obtain rfl : Outcome.inserted = outcome := congrArg Ingested.outcome (Except.ok.inj handed)
  refine ⟨inserted, report, entry, ?_⟩
  rw [held, entry]
  rfl

end Engine

end SignedFacts
