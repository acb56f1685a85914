import SignedFacts.Proofs.Engine.Authentic
import SignedFacts.Proofs.Peer.Split

/-!
# Rounds that complete

A round completes if an answer arrives in time and can be cut into documents
(`pull_completed`).  Every document is counted once, as malformed, as invalid, or by
what the store did with its record.  The documents that are not let through leave no
trace but their counts, and the same answer a second time adds nothing
(`completion_accounted`).
-/

namespace SignedFacts

namespace Answer

/-- The octets that an answer brings in the end, if it brings any. -/
def body? : Answer → Option (List UInt8)
  | body octets => some octets
  | fail _ => none
  | delayed _ next => next.body?

theorem result_of_body? {answer : Answer} {octets : List UInt8} {limit : Nat}
    (given : answer.body? = some octets) (small : octets.length ≤ limit) :
    answer.result limit = .ok octets := by
  induction answer with
  | body found =>
      cases given
      exact if_neg (Nat.not_lt.2 small)
  | fail error => cases given
  | delayed milliseconds next induction => exact induction given

end Answer

namespace Engine

/-- A round with a URL brings an answer.  The URL is not blank, and the peer answers in
time and with no more octets than allowed. -/
structure Brings (url : String) (body : List UInt8) (engine : Engine) : Prop where
  filled : Text.trim url ≠ ""
  given : (engine.transport.answerFor (Text.trim url)).body? = some body
  inTime : (engine.transport.answerFor (Text.trim url)).delay ≤ engine.settings.fetchTimeout
  small : body.length ≤ engine.settings.maxResponseOctets

section Completion

variable {engine : Engine} {url : String} {body : List UInt8} {documents : List String}

theorem Brings.received (brings : engine.Brings url body) :
    engine.received url = Response.split body engine.settings.maxRecords := by
  have named : (Text.trim url).isEmpty = false :=
    Bool.eq_false_iff.2 (mt String.isEmpty_iff.1 brings.filled)
  simp only [Engine.received, named, Bool.false_eq_true, if_false, await,
    if_neg (Nat.not_lt.2 brings.inTime), Answer.result_of_body? brings.given brings.small]
  rfl

/-- What the store makes of documents from a peer. -/
def mergedFrom (url : String) (documents : List String) (engine : Engine) :
    List Outcome × Store × Clock :=
  engine.store.mergeEach (Round.submissions engine.verifier (Text.trim url) documents) engine.clock

/-- What a completed round reports. -/
def summaryOf (url : String) (documents : List String) (engine : Engine) : Summary where
  peer := Text.trim url
  fetched := documents.length
  skippedMalformed := documents.countP Round.isMalformed
  skippedInvalid := documents.countP (Round.isInvalid engine.verifier)
  inserted := (engine.mergedFrom url documents).1.count .inserted
  duplicate := (engine.mergedFrom url documents).1.count .duplicate
  rejected := 0

/-- A round that receives documents completes. -/
theorem pull_of_documents (usable : engine.storeFault = none)
    (arrived : engine.received url = .ok documents) :
    engine.pull url
      = (.ok (engine.summaryOf url documents), { engine with
          store := (engine.mergedFrom url documents).2.1
          clock := (engine.mergedFrom url documents).2.2.tick.2
          peers := (engine.peers.register (Text.trim url)).recordSuccess (Text.trim url)
            (engine.mergedFrom url documents).2.2.tick.1
          transport := engine.transport.count (Text.trim url) }) := by
  rw [pull_of_received usable arrived, Round.takeIn_eq]
  rfl

/-- A round completes if its answer can be cut into documents. -/
theorem pull_completed (usable : engine.storeFault = none) (brings : engine.Brings url body)
    (cut : Response.split body engine.settings.maxRecords = .ok documents) :
    engine.pull url
      = (.ok (engine.summaryOf url documents), { engine with
          store := (engine.mergedFrom url documents).2.1
          clock := (engine.mergedFrom url documents).2.2.tick.2
          peers := (engine.peers.register (Text.trim url)).recordSuccess (Text.trim url)
            (engine.mergedFrom url documents).2.2.tick.1
          transport := engine.transport.count (Text.trim url) }) :=
  pull_of_documents usable (brings.received.trans cut)

/-- A completed round leaves the peer ready to give the same answer again. -/
theorem Brings.again (brings : engine.Brings url body) (usable : engine.storeFault = none)
    (cut : Response.split body engine.settings.maxRecords = .ok documents) :
    (engine.pull url).2.Brings url body := by
  rw [pull_completed usable brings cut]
  exact ⟨brings.filled, brings.given, brings.inTime, brings.small⟩

theorem inserted_add_duplicate :
    (engine.mergedFrom url documents).1.count .inserted
        + (engine.mergedFrom url documents).1.count .duplicate
      = documents.countP (Round.isAdmitted engine.verifier) :=
  Store.count_inserted_add_count_duplicate.trans Round.countP_isValid_submissions

/-- A round that brings known records only finds duplicates. -/
theorem pull_of_known (usable : engine.storeFault = none) (brings : engine.Brings url body)
    (cut : Response.split body engine.settings.maxRecords = .ok documents)
    (known : ∀ id ∈ Submission.validIds
      (Round.submissions engine.verifier (Text.trim url) documents), id ∈ engine.store.ids) :
    ∃ summary, (engine.pull url).1 = .ok summary ∧ summary.inserted = 0
      ∧ summary.duplicate = documents.countP (Round.isAdmitted engine.verifier)
      ∧ (engine.pull url).2.store = engine.store := by
  have inserted : (engine.mergedFrom url documents).1.count .inserted = 0 :=
    Store.count_inserted_of_known known
  have duplicate := @inserted_add_duplicate engine url documents
  have unchanged : (engine.mergedFrom url documents).2 = (engine.store, engine.clock) :=
    Store.mergeEach_of_known known
  rw [inserted, Nat.zero_add] at duplicate
  rw [pull_completed usable brings cut]
  exact ⟨_, rfl, inserted, duplicate, congrArg Prod.fst unchanged⟩

/-- A completed round counts every document once.  It merges those that are let
through, in their order, and no others.  Another answer in which the same documents are let
through does the same, whatever else it holds.  The same answer once more brings only what
is known. -/
theorem completion_accounted (usable : engine.storeFault = none)
    (brings : engine.Brings url body)
    (cut : Response.split body engine.settings.maxRecords = .ok documents) :
    let submissions := Round.submissions engine.verifier (Text.trim url) documents
    let after := (engine.pull url).2
    ∃ summary, (engine.pull url).1 = .ok summary
      ∧ summary.fetched = documents.length
      ∧ documents.length = summary.skippedMalformed + summary.skippedInvalid + summary.inserted
        + summary.duplicate + summary.rejected
      ∧ summary.skippedMalformed = documents.countP Round.isMalformed
      ∧ summary.skippedInvalid = documents.countP (Round.isInvalid engine.verifier)
      ∧ summary.inserted
        = ((Submission.validIds submissions).toFinset \ engine.store.ids.toFinset).card
      ∧ summary.rejected = 0
      ∧ after.store = (engine.store.mergeEach submissions engine.clock).2.1
      ∧ after.store.count = engine.store.count + summary.inserted
      ∧ (∀ transport otherBody others,
        { engine with transport := transport }.Brings url otherBody →
        Response.split otherBody engine.settings.maxRecords = .ok others →
        others.filter (Round.isAdmitted engine.verifier)
          = documents.filter (Round.isAdmitted engine.verifier) →
        let other := { engine with transport := transport }.pull url
        other.1 = .ok { summary with
            fetched := others.length
            skippedMalformed := others.countP Round.isMalformed
            skippedInvalid := others.countP (Round.isInvalid engine.verifier) }
          ∧ other.2 = { after with transport := other.2.transport })
      ∧ after.Brings url body
      ∧ ∀ transport, { after with transport := transport }.Brings url body →
        let again := { after with transport := transport }.pull url
        ∃ repeated, again.1 = .ok repeated ∧ repeated.inserted = 0
          ∧ repeated.duplicate = summary.inserted + summary.duplicate
          ∧ again.2.store = after.store := by
  have pulled := pull_completed usable brings cut
  refine ⟨engine.summaryOf url documents, congrArg Prod.fst pulled, rfl, ?_, rfl, rfl,
    Store.card_new_eq_count_inserted, rfl, ?_, ?_, fun transport otherBody others bringsToo cutToo
      same => ?_, brings.again usable cut, fun transport bringsAgain => ?_⟩
  · have kinds := Round.length_eq_add engine.verifier documents
    have total := @inserted_add_duplicate engine url documents
    simp only [summaryOf]
    omega
  · rw [pulled]
    rfl
  · rw [pulled]
    exact Store.count_mergeEach
  · have merged : { engine with transport := transport }.mergedFrom url others
        = engine.mergedFrom url documents := by
      simp only [mergedFrom, Round.submissions, Round.records, same]
    have pulledToo := @pull_completed { engine with transport := transport } _ _ _ usable bringsToo
      cutToo
    simp only [pulled, pulledToo, summaryOf, merged, and_self]
  · -- After the round every id that was submitted is known.
    have known : ∀ id ∈ Submission.validIds
        (Round.submissions engine.verifier (Text.trim url) documents),
        id ∈ (engine.pull url).2.store.ids := by
      rw [pulled]
      exact fun id member => Store.mem_ids_mergeEach_iff.2 (.inr member)
    obtain ⟨setup, _⟩ := pull_spec url usable
    have total := @inserted_add_duplicate engine url documents
    generalize (engine.pull url).2 = after at setup known bringsAgain ⊢
    rw [← setup.verifier] at known total
    rw [← setup.settings] at cut
    obtain ⟨repeated, completed, inserted, duplicate, unchanged⟩ :=
      @pull_of_known { after with transport := transport } url body documents
        (setup.storeFault.trans usable) bringsAgain cut known
    exact ⟨repeated, completed, inserted, duplicate.trans total.symm, unchanged⟩

end Completion

/-! ## An answer with bad documents -/

/-- A number, which is no record, the record that is not signed, and the signed one twice. -/
def mixed : List Value :=
  [.number (.ofInt 7), unsigned.toValue, signedRecord.toValue, signedRecord.toValue]

/-- An engine with a peer that answers so after a while. -/
def fedMixed : Engine :=
  { Engine.new {} with
    transport := Transport.empty.respond "u"
      (.delayed 5 (.body (Utf8.octets (Response.join (mixed.map Value.chars))))) }

theorem length_mixed :
    (Utf8.octets (Response.join (mixed.map Value.chars))).length ≤ 4 * 1024 * 1024 := by
  decide +kernel

/-- What becomes of the documents in this answer. -/
theorem kinds_mixed :
    let documents := (mixed.map Value.chars).map String.ofList
    documents.countP Round.isMalformed = 1
      ∧ documents.countP (Round.isInvalid Ed25519.verify) = 1
      ∧ Round.records Ed25519.verify documents = [signedRecord, signedRecord] := by
  have number : Round.record? (String.ofList (Value.number (.ofInt 7)).chars) = none := rfl
  have badly : Round.record? (String.ofList unsigned.toValue.chars) = some unsigned :=
    Round.record?_text parse_unsigned
  have well : Round.record? (String.ofList signedRecord.toValue.chars) = some signedRecord :=
    Round.record?_text parse_signedRecord
  have undecodable : unsigned.check Ed25519.verify ≠ .valid := by decide
  have noRecord : Round.isAdmitted Ed25519.verify
      (String.ofList (Value.number (.ofInt 7)).chars) = false := by
    rw [Round.isAdmitted, number, Option.any_none]
  have refused := Bool.eq_false_iff.2 (mt (Round.isAdmitted_iff badly).1 undecodable)
  have admitted := (Round.isAdmitted_iff well).2 check_signedRecord
  intro documents
  have malformed : documents.countP Round.isMalformed = 1 := by
    simp [documents, mixed, Round.isMalformed, number, badly, well]
  have twice : documents.countP (Round.isAdmitted Ed25519.verify) = 2 := by
    simp [documents, mixed, noRecord, refused, admitted]
  have four : documents.length = 4 := rfl
  have kinds := Round.length_eq_add Ed25519.verify documents
  refine ⟨malformed, by omega, ?_⟩
  simp [documents, mixed, Round.records, well, noRecord, refused, admitted]

theorem completion_accounted_mixed :
    ∃ summary, (fedMixed.pull " u ").1 = .ok summary ∧ summary.fetched = 4
      ∧ summary.skippedMalformed = 1 ∧ summary.skippedInvalid = 1 ∧ summary.inserted = 1
      ∧ summary.duplicate = 1 ∧ (fedMixed.pull " u ").2.store.count = 1 := by
  have cut : Response.split (Utf8.octets (Response.join (mixed.map Value.chars)))
      fedMixed.settings.maxRecords = .ok ((mixed.map Value.chars).map String.ofList) := by
    rw [Response.split, Response.elementsOf_join
      (List.forall_mem_map.2 fun value _ => ⟨_, value.spells_chars⟩)]
    rfl
  have brings : fedMixed.Brings " u " (Utf8.octets (Response.join (mixed.map Value.chars))) :=
    ⟨by decide, rfl, by decide, length_mixed⟩
  obtain ⟨summary, completed, fetched, total, malformed, invalid, inserted, rejected, _, count,
    _⟩ := completion_accounted rfl brings cut
  obtain ⟨oneMalformed, oneInvalid, records⟩ := kinds_mixed
  have strict : fedMixed.verifier = Ed25519.verify := rfl
  have none : fedMixed.store.ids = [] := rfl
  rw [strict, Round.validIds_submissions, records, none] at inserted
  have four : summary.fetched = 4 := fetched.trans (by simp [mixed])
  have malformed := malformed.trans oneMalformed
  have invalid := invalid.trans oneInvalid
  have one : summary.inserted = 1 := inserted.trans (by simp)
  refine ⟨summary, completed, four, malformed, invalid, one, by omega, ?_⟩
  rw [count, one]
  rfl

end Engine

end SignedFacts
