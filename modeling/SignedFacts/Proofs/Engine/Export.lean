import Mathlib.Data.List.Find
import SignedFacts.Proofs.Engine.Completion
import SignedFacts.Proofs.Engine.Exchange

/-!
# Rounds with what another engine serves

What an engine holds has been read from documents (`parsed_of_mem_processed`), so
its records can be passed on unless sorting has put a reserved key in front of a
mapping (`Record.portable_of_parse`).  An engine that pulls such records passes over
none of them.  It adds those whose ids it does not have, just as they are, and leaves
its own entries alone (`pull_export`).
-/

namespace SignedFacts

/-- The canonical text of a record that has been read is read as the record, if no
mapping in the payload is led by a reserved key. -/
theorem Record.portable_of_parse {document : List UInt8} {record : Record}
    (parsed : Record.parse document = .ok record)
    (plain : ∀ node ∈ record.payload.toValue.nodes 2, ¬ node.2.LeadsReserved) :
    Record.parse (Utf8.octets record.chars) = .ok record := by
  obtain ⟨filled, within⟩ := Record.sound_of_parse parsed
  exact Record.parse_chars filled within
    ((Value.everywhere_frontPlain_iff record.isOrdered_payload).2 plain)

namespace Round

/-! ## Documents that are canonical texts -/

section Served

variable {known : RecordId → Prop} {records : List Record}
  (genuine : ∀ record ∈ records, record.Genuine known)

include genuine

/-- Every text of a genuine record is let through. -/
theorem isAdmitted_text : ∀ text ∈ records.map Record.text,
    isAdmitted Ed25519.verify text = true :=
  List.forall_mem_map.2 fun record member =>
    (isAdmitted_iff (record?_text (genuine record member).portable)).2 (genuine record member).valid

theorem records_text : Round.records Ed25519.verify (records.map Record.text) = records := by
  rw [Round.records, List.filter_eq_self.2 (isAdmitted_text genuine), List.filterMap_map]
  refine (List.filterMap_congr fun record member => ?_).trans List.filterMap_some
  exact record?_text (genuine record member).portable

theorem countP_text :
    (records.map Record.text).countP isMalformed = 0
      ∧ (records.map Record.text).countP (isInvalid Ed25519.verify) = 0 := by
  have kinds := length_eq_add Ed25519.verify (records.map Record.text)
  have all := List.countP_eq_length.2 (isAdmitted_text genuine)
  omega

/-- The first copy of an id is that of the first record with it. -/
theorem copy_firstValid?_text {peer : String} {id : RecordId} :
    (Submission.firstValid? id
        (submissions Ed25519.verify peer (records.map Record.text))).map Submission.copy
      = (records.find? (·.id = id)).map fun record => (record, .peer peer) := by
  rw [submissions, records_text genuine, Submission.firstValid?, List.find?_map, Option.map_map]
  refine congrArg _ (List.find?_congr fun record member => ?_)
  have valid := Envelope.isValid_iff.2 (genuine record member).valid
  rw [Function.comp, Submission.isValid, valid, Bool.true_and]
  rfl

end Served

end Round

namespace Engine

/-! ## What has been read -/

theorem parsed_of_mem_processedIn {call : Call} {engine : Engine} {record : Record}
    (member : record ∈ engine.processedIn call) :
    ∃ document, Record.parse document = .ok record := by
  cases call with
  | ingest document =>
      exact ⟨document, Json.toOption_eq_some_iff.1 (Option.mem_toList.1 member)⟩
  | pull url transport =>
      rw [processedIn] at member
      split at member
      next documents =>
        obtain ⟨document, _, read⟩ := List.mem_filterMap.1 member
        exact ⟨_, Json.toOption_eq_some_iff.1 read⟩
      next => cases member

theorem parsed_of_mem_processed {calls : List Call} {engine : Engine} {record : Record}
    (member : record ∈ engine.processed calls) :
    ∃ document, Record.parse document = .ok record := by
  induction calls generalizing engine with
  | nil => cases member
  | cons call calls induction =>
      exact (List.mem_append.1 member).elim parsed_of_mem_processedIn induction

/-- An engine that calls have brought about.  Its transport may have changed since, as it
may before each call. -/
def Reached (engine : Engine) : Prop :=
  ∃ settings calls transport,
    engine = { (Engine.new settings).run calls with transport := transport }

theorem reached_run (settings : Settings) (calls : List Call) :
    ((Engine.new settings).run calls).Reached := ⟨settings, calls, _, rfl⟩

section Reached

variable {source engine : Engine} {known : RecordId → Prop} {url : String}
  {records : List Record}

theorem Reached.authentic (reached : engine.Reached) :
    ∃ seen, engine.Authentic seen
      ∧ ∀ record ∈ seen, ∃ document, Record.parse document = .ok record := by
  obtain ⟨settings, calls, transport, rfl⟩ := reached
  obtain ⟨verifier, usable, held⟩ := (authentic_new settings).run calls
  exact ⟨_, ⟨verifier, usable, held⟩, fun record => parsed_of_mem_processed⟩

/-- An engine that has been reached holds genuine records, if they can be passed on. -/
theorem Reached.holds (reached : engine.Reached)
    (plain : ∀ id entry, engine.store.find? id = some entry →
      ∀ node ∈ entry.record.payload.toValue.nodes 2, ¬ node.2.LeadsReserved) :
    engine.Holds fun _ => True := by
  obtain ⟨seen, authentic, read⟩ := reached.authentic
  refine ⟨authentic.verifier, authentic.usable, fun id entry held => ?_⟩
  obtain ⟨⟨same, valid⟩, member⟩ := authentic.held id entry held
  obtain ⟨document, parsed⟩ := read _ member
  exact ⟨same.symm, trivial, valid, Record.portable_of_parse parsed (plain id entry held)⟩

/-- The ids of the records served are the ids held. -/
theorem Holds.map_id_served (holds : engine.Holds known) :
    (engine.store.entries.map Entry.record).map Record.id = engine.store.ids := by
  rw [Store.entries, Store.ids, Table.values, Table.keys, List.map_map, List.map_map]
  exact List.map_congr_left fun entry member =>
    (holds.held entry.1 entry.2 (Table.find?_eq_some_iff.2 member)).1

/-- The record that is served under an id is that of the entry. -/
theorem Holds.find?_served (holds : engine.Holds known) {id : RecordId} :
    (engine.store.entries.map Entry.record).find? (·.id = id)
      = (engine.store.find? id).map Entry.record := by
  cases found : (engine.store.entries.map Entry.record).find? (·.id = id) with
  | some record =>
      obtain ⟨key, entry, held, rfl⟩ := mem_served_iff.1 (List.mem_of_find?_eq_some found)
      obtain rfl : entry.record.id = id := by simpa using List.find?_some found
      rw [(holds.held key entry held).1, held, Option.map_some]
  | none =>
      cases held : engine.store.find? id with
      | none => rfl
      | some entry =>
          have served := mem_served_iff.2 ⟨id, entry, held, rfl⟩
          have other := List.find?_eq_none.1 found _ served
          simp [(holds.held id entry held).1] at other

theorem length_served (engine : Engine) :
    (engine.store.entries.map Entry.record).length = engine.store.count := by
  rw [List.length_map, Store.entries, Table.values, List.length_map]
  rfl

/-! ## Rounds -/

/-- A round that is served genuine records passes over none of them. -/
theorem pull_served (strict : engine.verifier = Ed25519.verify)
    (usable : engine.storeFault = none) (genuine : ∀ record ∈ records, record.Genuine known)
    (brings : engine.Brings url (Utf8.octets (Response.ofRecords records)))
    (few : records.length ≤ engine.settings.maxRecords) :
    let ids := (records.map Record.id).toFinset \ engine.store.ids.toFinset
    (engine.pull url).1
        = .ok ⟨Text.trim url, records.length, 0, 0, ids.card, records.length - ids.card, 0⟩
      ∧ (engine.pull url).2.store = (engine.store.mergeEach
        (Round.submissions Ed25519.verify (Text.trim url) (records.map Record.text))
        engine.clock).2.1 := by
  have cut : Response.split (Utf8.octets (Response.ofRecords records)) engine.settings.maxRecords
      = .ok (records.map Record.text) := by
    rw [Response.split_ofRecords, if_neg (Nat.not_lt.2 few)]
  have inserted : (engine.mergedFrom url (records.map Record.text)).1.count .inserted
      = ((records.map Record.id).toFinset \ engine.store.ids.toFinset).card := by
    rw [mergedFrom, Store.card_new_eq_count_inserted, Round.validIds_submissions, strict,
      Round.records_text genuine]
  have total := @inserted_add_duplicate engine url (records.map Record.text)
  rw [strict, List.countP_eq_length.2 (Round.isAdmitted_text genuine), List.length_map, inserted,
    Nat.add_comm] at total
  obtain ⟨malformed, invalid⟩ := Round.countP_text genuine
  intro ids
  rw [pull_completed usable brings cut, summaryOf, strict, malformed, invalid, inserted,
    Nat.eq_sub_of_add_eq total, List.length_map, mergedFrom, strict]
  exact ⟨rfl, rfl⟩

/-- A round of one engine with what another one serves completes and passes over
nothing.  It inserts the records with new ids and counts the others as known.  The new
entries hold the records of the other engine, and the entries that were there are left
alone. -/
theorem pull_export (sourceReached : source.Reached) (reached : engine.Reached)
    (plain : ∀ id entry, source.store.find? id = some entry →
      ∀ node ∈ entry.record.payload.toValue.nodes 2, ¬ node.2.LeadsReserved)
    (brings : engine.Brings url (Utf8.octets source.exportRecords))
    (few : source.store.count ≤ engine.settings.maxRecords) :
    let theirs := source.store.ids.toFinset
    let ours := engine.store.ids.toFinset
    (engine.pull url).1 = .ok { peer := Text.trim url
                                fetched := source.store.count
                                skippedMalformed := 0
                                skippedInvalid := 0
                                inserted := (theirs \ ours).card
                                duplicate := (theirs ∩ ours).card
                                rejected := 0 }
      ∧ (∀ id entry, engine.store.find? id = some entry →
        (engine.pull url).2.store.find? id = some entry)
      ∧ ∀ id, engine.store.find? id = none →
        ((engine.pull url).2.store.find? id).map Entry.copy
          = (source.store.find? id).map fun entry => (entry.record, .peer (Text.trim url)) := by
  have holds := sourceReached.holds plain
  have genuine := holds.genuine_served
  obtain ⟨_, authentic, _⟩ := reached.authentic
  obtain ⟨completed, store⟩ := pull_served authentic.verifier authentic.usable genuine brings
    ((length_served source).trans_le few)
  rw [holds.map_id_served, length_served] at completed
  intro theirs ours
  refine ⟨?_, ?_, fun id free => ?_⟩
  · -- The ids that are served are all different.
    have all : theirs.card = source.store.count := (Store.count_eq_card _).symm
    have parts := Finset.card_sdiff_add_card_inter theirs ours
    have duplicate : (theirs ∩ ours).card = source.store.count - (theirs \ ours).card := by omega
    rw [completed, duplicate]
  · rw [store]
    exact Store.grows_mergeEach
  · rw [store, Store.copy_mergeEach free, Round.copy_firstValid?_text genuine, holds.find?_served,
      Option.map_map]
    rfl

end Reached

/-! ## A served record -/

/-- An engine with one signed record. -/
def holder : Engine := (Engine.new {}).run [.ingest (Utf8.octets signedRecord.chars)]

theorem served_holder : holder.store.entries.map Entry.record = [signedRecord] := by
  rw [holder, run, run, perform]
  exact @served_ingest (Engine.new {}) _ _ rfl rfl parse_signedRecord check_signedRecord

/-- A new engine, about to pull what this one serves. -/
def follower : Engine :=
  { Engine.new {} with
    transport := (Engine.new {}).answering "u" (Utf8.octets holder.exportRecords) }

/-- The new engine then holds the record. -/
theorem pull_export_follower :
    (follower.pull "u").1 = .ok ⟨"u", 1, 0, 0, 1, 0, 0⟩
      ∧ ((follower.pull "u").2.store.find? signedRecord.id).map Entry.copy
        = some (signedRecord, .peer "u") := by
  have reached : holder.Reached := reached_run {} _
  have plain : ∀ id entry, holder.store.find? id = some entry →
      ∀ node ∈ entry.record.payload.toValue.nodes 2, ¬ node.2.LeadsReserved := by
    intro id entry held
    have served := mem_served_iff.2 ⟨id, entry, held, rfl⟩
    rw [served_holder, List.mem_singleton] at served
    rw [served]
    exact (Value.everywhere_frontPlain_iff signedRecord.isOrdered_payload).1 (by decide)
  have allows : (Engine.new {}).Allows "u" (Utf8.octets holder.exportRecords) := by
    rw [exportRecords, served_holder]
    exact allows_ofRecords (by decide) length_signedRecord (show 1 ≤ 10000 by decide)
  have count : holder.store.count = 1 := by
    rw [← length_served, served_holder]
    rfl
  obtain ⟨completed, _, copied⟩ := @pull_export holder follower "u" reached ⟨{}, [], _, rfl⟩ plain
    allows.brings (count.trans_le (show 1 ≤ 10000 by decide))
  have ids : holder.store.ids = [signedRecord.id] := by
    rw [← (reached.holds plain).map_id_served, served_holder]
    rfl
  have held : holder.store.find? signedRecord.id = some ⟨signedRecord, .here, 1⟩ := by
    rw [holder, run, run, perform]
    exact find?_ingest_signedRecord rfl rfl (Table.find?_empty _)
  have none : follower.store.ids = [] := rfl
  have trimmed : Text.trim "u" = "u" := rfl
  have new := copied signedRecord.id rfl
  rw [held, Option.map_some, trimmed] at new
  rw [count, ids, none, trimmed] at completed
  exact ⟨completed.trans (by simp), new⟩

end Engine

end SignedFacts
