import SignedFacts.Peer.Round
import SignedFacts.Proofs.Json.Token
import SignedFacts.Proofs.Store.Union

/-!
# What a round makes of its documents

A document is let through if it spells a record whose signature holds.  The others
are malformed or invalid, so each document is of one of three kinds
(`length_eq_add`).  The records that are let through are submitted to the store, and
nothing else is (`takeIn_eq`).
-/

namespace SignedFacts

namespace Envelope

theorem isValid_iff {verifier : Verifier} {record : Record} :
    ((Envelope.ofRecord record).verify verifier).isValid = true
      ↔ record.check verifier = .valid := by
  rw [isValid, decide_eq_true_iff]
  rfl

theorem record_verify (verifier : Verifier) (record : Record) :
    ((Envelope.ofRecord record).verify verifier).record = record := rfl

end Envelope

namespace Round

/-! ## Kinds of documents -/

/-- The record that a document spells, if it spells one. -/
def record? (document : String) : Option Record :=
  (Record.parse (Utf8.encode document)).toOption

/-- Whether a document spells no record. -/
def isMalformed (document : String) : Bool := (record? document).isNone

/-- Whether a document spells a record whose signature does not hold. -/
def isInvalid (verifier : Verifier) (document : String) : Bool :=
  (record? document).any fun record => record.check verifier ≠ .valid

/-- Whether a document spells a record whose signature holds. -/
def isAdmitted (verifier : Verifier) (document : String) : Bool :=
  (record? document).any fun record => record.check verifier = .valid

/-- The records that are let through, in order. -/
def records (verifier : Verifier) (documents : List String) : List Record :=
  (documents.filter (isAdmitted verifier)).filterMap record?

section Documents

variable {verifier : Verifier} {documents : List String} {document : String} {record : Record}

theorem record?_eq_some_iff :
    record? document = some record ↔ Record.parse (Utf8.encode document) = .ok record :=
  Json.toOption_eq_some_iff

/-- The text of a record spells the record, if it is read as the record. -/
theorem record?_text (portable : Record.parse (Utf8.octets record.chars) = .ok record) :
    record? record.text = some record := by
  rw [record?_eq_some_iff, Record.text, Utf8.encode, String.toList_ofList]
  exact portable

theorem isAdmitted_iff (spelled : record? document = some record) :
    isAdmitted verifier document = true ↔ record.check verifier = .valid := by
  rw [isAdmitted, spelled, Option.any_some, decide_eq_true_iff]

theorem mem_records_iff :
    record ∈ records verifier documents
      ↔ record.check verifier = .valid
        ∧ ∃ document ∈ documents, record? document = some record := by
  simp only [records, List.mem_filterMap, List.mem_filter]
  constructor
  · rintro ⟨document, ⟨member, admitted⟩, spelled⟩
    exact ⟨(isAdmitted_iff spelled).1 admitted, document, member, spelled⟩
  · rintro ⟨holds, document, member, spelled⟩
    exact ⟨document, ⟨member, (isAdmitted_iff spelled).2 holds⟩, spelled⟩

theorem length_records :
    (records verifier documents).length = documents.countP (isAdmitted verifier) := by
  rw [records, List.length_filterMap_eq_countP, List.countP_filter]
  refine List.countP_congr fun document _ => ?_
  rw [isAdmitted]
  cases record? document <;> simp

/-- A document is of one of three kinds. -/
theorem one_kind (verifier : Verifier) (document : String) :
    (if isMalformed document then 1 else 0) + (if isInvalid verifier document then 1 else 0)
      + (if isAdmitted verifier document then 1 else 0) = 1 := by
  rw [isMalformed, isInvalid, isAdmitted]
  cases record? document with
  | none => rfl
  | some record => by_cases holds : record.check verifier = .valid <;> simp [holds]

theorem length_eq_add (verifier : Verifier) (documents : List String) :
    documents.length = documents.countP isMalformed + documents.countP (isInvalid verifier)
      + documents.countP (isAdmitted verifier) := by
  induction documents with
  | nil => rfl
  | cons document documents induction =>
      have kind := one_kind verifier document
      rw [List.length_cons, List.countP_cons, List.countP_cons, List.countP_cons]
      omega

/-! ## Verdicts -/

theorem judge_eq (verifier : Verifier) (document : String) :
    judge verifier document = match record? document with
      | none => .malformed
      | some record =>
          if record.check verifier = .valid then .valid ((Envelope.ofRecord record).verify verifier)
          else .invalid := by
  rw [judge, record?]
  cases Record.parse (Utf8.encode document) with
  | error cause => rfl
  | ok record => simp only [Except.toOption, Envelope.isValid_iff]

theorem isMalformed_judge : (judge verifier document).isMalformed = isMalformed document := by
  rw [judge_eq, isMalformed]
  cases record? document with
  | none => rfl
  | some record =>
      by_cases holds : record.check verifier = .valid <;> simp [holds, Verdict.isMalformed]

theorem isInvalid_judge :
    (judge verifier document).isInvalid = isInvalid verifier document := by
  rw [judge_eq, isInvalid]
  cases record? document with
  | none => rfl
  | some record =>
      by_cases holds : record.check verifier = .valid <;> simp [holds, Verdict.isInvalid]

theorem valid_judge (verifier : Verifier) (documents : List String) :
    valid (documents.map (judge verifier))
      = (records verifier documents).map fun record =>
        (Envelope.ofRecord record).verify verifier := by
  rw [valid, records, List.filterMap_map, List.filterMap_filter, List.map_filterMap]
  refine List.filterMap_congr fun document _ => ?_
  rw [Function.comp, judge_eq, isAdmitted]
  cases record? document with
  | none => rfl
  | some record => by_cases holds : record.check verifier = .valid <;> simp [holds]

/-- The valid envelopes of documents are those of the records that they spell and
whose signatures hold. -/
theorem mem_valid_iff {envelope : Envelope} :
    envelope ∈ valid (documents.map (judge verifier))
      ↔ ∃ document ∈ documents, ∃ record,
        Record.parse (Utf8.encode document) = .ok record ∧ record.check verifier = .valid
          ∧ envelope = (Envelope.ofRecord record).verify verifier := by
  simp only [valid_judge, List.mem_map, mem_records_iff, record?_eq_some_iff]
  constructor
  · rintro ⟨record, ⟨holds, document, member, spelled⟩, same⟩
    exact ⟨document, member, record, spelled, holds, same.symm⟩
  · rintro ⟨document, member, record, spelled, holds, same⟩
    exact ⟨record, ⟨holds, document, member, spelled⟩, same.symm⟩

end Documents

/-! ## Rounds -/

/-- What a peer submits with its documents. -/
def submissions (verifier : Verifier) (peer : String) (documents : List String) :
    List Submission :=
  (records verifier documents).map fun record =>
    ⟨.peer peer, (Envelope.ofRecord record).verify verifier⟩

section Submissions

variable {verifier : Verifier} {peer : String} {documents : List String}

theorem isValid_of_mem_submissions :
    ∀ submission ∈ submissions verifier peer documents, submission.isValid = true := by
  refine List.forall_mem_map.2 fun record member => ?_
  exact Envelope.isValid_iff.2 (mem_records_iff.1 member).1

theorem validIds_submissions :
    Submission.validIds (submissions verifier peer documents)
      = (records verifier documents).map Record.id := by
  rw [Submission.validIds, List.filter_eq_self.2 isValid_of_mem_submissions, submissions,
    List.map_map]
  rfl

theorem countP_isValid_submissions :
    (submissions verifier peer documents).countP Submission.isValid
      = documents.countP (isAdmitted verifier) := by
  rw [List.countP_eq_length.2 isValid_of_mem_submissions, submissions, List.length_map,
    length_records]

/-- A round submits the records that are let through and counts the other
documents. -/
theorem takeIn_eq (store : Store) (clock : Clock) :
    takeIn verifier peer documents store clock
      = (let merged := store.mergeEach (submissions verifier peer documents) clock
        ({ peer := peer
           fetched := documents.length
           skippedMalformed := documents.countP isMalformed
           skippedInvalid := documents.countP (isInvalid verifier)
           inserted := merged.1.count .inserted
           duplicate := merged.1.count .duplicate
           rejected := 0 }, merged.2)) := by
  have rejected : (store.mergeEach (submissions verifier peer documents) clock).1.count .rejected
      = 0 := by
    rw [Store.count_rejected, List.countP_eq_zero]
    exact fun submission member => by simp [isValid_of_mem_submissions submission member]
  have malformed : ((documents.map (judge verifier)).filter Verdict.isMalformed).length
      = documents.countP isMalformed := by
    rw [← List.countP_eq_length_filter, List.countP_map]
    exact List.countP_congr fun document _ => by rw [Function.comp, isMalformed_judge]
  have invalid : ((documents.map (judge verifier)).filter Verdict.isInvalid).length
      = documents.countP (isInvalid verifier) := by
    rw [← List.countP_eq_length_filter, List.countP_map]
    exact List.countP_congr fun document _ => by rw [Function.comp, isInvalid_judge]
  simp only [takeIn, summarise, valid_judge, Store.mergeBatch_eq_mergeEach, List.map_map,
    malformed, invalid, List.length_map, ← rejected]
  rfl

end Submissions

end Round

end SignedFacts
