import Mathlib.Data.Finset.Card
import SignedFacts.Proofs.Store.Merge

/-!
# Merging is a union

Envelopes reach a store alone or in batches, whatever is known of their
signatures and wherever they come from.  How they are grouped does not matter: a
run of calls does what merging its submissions one by one does
(`run_eq_mergeEach`).  Afterwards the ids are those held before and those of the
valid envelopes (`mem_ids_mergeEach_iff`), and the outcomes are counted by these
sets of ids (`card_new_eq_count_inserted`).  So their order does not matter
either.  It decides only whose copy of a record is kept, and that is the first one
(`copy_mergeEach`).  A batch is the case of one origin (`find?_mergeBatch`).
-/

namespace SignedFacts

/-- An envelope on its way to a store. -/
structure Submission where
  /-- Where it comes from. -/
  origin : Origin
  /-- The envelope. -/
  envelope : Envelope

namespace Submission

/-- The id of the record. -/
def id (submission : Submission) : RecordId := submission.envelope.record.id

/-- Whether the signature is known to hold. -/
def isValid (submission : Submission) : Bool := submission.envelope.isValid

/-- The record with where it comes from. -/
def copy (submission : Submission) : Record × Origin :=
  (submission.envelope.record, submission.origin)

/-- The ids of the valid ones, in order and with repetitions. -/
def validIds (submissions : List Submission) : List RecordId :=
  (submissions.filter isValid).map id

/-- The first valid one with an id. -/
def firstValid? (key : RecordId) (submissions : List Submission) : Option Submission :=
  submissions.find? fun submission => submission.isValid && submission.id = key

theorem mem_validIds_iff {key : RecordId} {submissions : List Submission} :
    key ∈ validIds submissions
      ↔ ∃ submission ∈ submissions, submission.isValid = true ∧ submission.id = key := by
  simp only [validIds, List.mem_map, List.mem_filter, and_assoc]

theorem of_firstValid?_eq_some {key : RecordId} {submissions : List Submission}
    {submission : Submission} (found : firstValid? key submissions = some submission) :
    submission ∈ submissions ∧ submission.isValid = true ∧ submission.id = key := by
  have fits := List.find?_some found
  rw [Bool.and_eq_true, decide_eq_true_iff] at fits
  exact ⟨List.mem_of_find?_eq_some found, fits⟩

end Submission

/-- The record of an entry with where it came from. -/
def Entry.copy (entry : Entry) : Record × Origin := (entry.record, entry.origin)

namespace Store

open Submission (validIds firstValid?)

/-! ## Calls -/

/-- A call that hands envelopes to a store. -/
inductive Call where
  /-- One envelope. -/
  | merge (origin : Origin) (envelope : Envelope)
  /-- Some envelopes from one place. -/
  | mergeBatch (origin : Origin) (envelopes : List Envelope)

/-- What a call hands over. -/
def Call.submissions : Call → List Submission
  | merge origin envelope => [⟨origin, envelope⟩]
  | mergeBatch origin envelopes => envelopes.map (Submission.mk origin)

/-- What a call does, with one outcome for each envelope. -/
def perform (call : Call) (store : Store) (clock : Clock) : List Outcome × Store × Clock :=
  match call with
  | .merge origin envelope =>
      let (outcome, store, clock) := store.merge envelope origin clock
      ([outcome], store, clock)
  | .mergeBatch origin envelopes => store.mergeBatch origin envelopes clock

/-- What some calls do. -/
def run : List Call → Store → Clock → List Outcome × Store × Clock
  | [], store, clock => ([], store, clock)
  | call :: calls, store, clock =>
      let (first, store, clock) := store.perform call clock
      let (others, store, clock) := run calls store clock
      (first ++ others, store, clock)

/-- Merges submissions one by one. -/
def mergeEach : List Submission → Store → Clock → List Outcome × Store × Clock
  | [], store, clock => ([], store, clock)
  | submission :: rest, store, clock =>
      let (outcome, store, clock) := store.merge submission.envelope submission.origin clock
      let (outcomes, store, clock) := mergeEach rest store clock
      (outcome :: outcomes, store, clock)

section Grouping

variable {store : Store} {clock : Clock}

theorem mergeBatch_eq_mergeEach {origin : Origin} {envelopes : List Envelope} :
    store.mergeBatch origin envelopes clock
      = store.mergeEach (envelopes.map (Submission.mk origin)) clock := by
  induction envelopes generalizing store clock with
  | nil => rfl
  | cons envelope rest induction => simp only [mergeBatch, List.map_cons, mergeEach, induction]

theorem perform_eq_mergeEach {call : Call} :
    store.perform call clock = store.mergeEach call.submissions clock := by
  cases call with
  | merge origin envelope => rfl
  | mergeBatch origin envelopes => exact mergeBatch_eq_mergeEach

theorem mergeEach_append {first second : List Submission} :
    store.mergeEach (first ++ second) clock
      = (let before := store.mergeEach first clock
        let after := before.2.1.mergeEach second before.2.2
        (before.1 ++ after.1, after.2)) := by
  induction first generalizing store clock with
  | nil => rfl
  | cons submission rest induction => simp only [List.cons_append, mergeEach, induction]

/-- It does not matter how submissions are grouped. -/
theorem run_eq_mergeEach {calls : List Call} :
    store.run calls clock = store.mergeEach (calls.flatMap Call.submissions) clock := by
  induction calls generalizing store clock with
  | nil => rfl
  | cons call calls induction =>
      simp only [run, induction, perform_eq_mergeEach, List.flatMap_cons, mergeEach_append]

end Grouping

/-! ## One submission -/

section Step

variable {store : Store} {clock : Clock} {submission : Submission} {rest : List Submission}

theorem mem_ids_add_iff {record : Record} {key id : RecordId} {origin : Origin} {time : Nat} :
    id ∈ (store.add record key origin time).ids ↔ id = key ∨ id ∈ store.ids := by
  rw [mem_ids_iff, mem_ids_iff, find?_add]
  by_cases same : id = key <;> simp [same]

/-- The three things that can become of a submission. -/
theorem merge_cases (store : Store) (clock : Clock) (submission : Submission) :
    (submission.isValid = false
        ∧ store.merge submission.envelope submission.origin clock = (.rejected, store, clock))
      ∨ (submission.isValid = true ∧ submission.id ∈ store.ids
        ∧ store.merge submission.envelope submission.origin clock = (.duplicate, store, clock))
      ∨ (submission.isValid = true ∧ submission.id ∉ store.ids
        ∧ store.merge submission.envelope submission.origin clock
          = (.inserted, store.add submission.envelope.record submission.id submission.origin
              (clock.now + 1), ⟨clock.now + 1⟩)) := by
  have held : submission.id ∈ store.ids ↔ store.contains submission.envelope.record.id = true :=
    mem_ids_iff.trans contains_iff.symm
  rw [held, merge_eq, Submission.isValid]
  split
  next valid =>
    split
    next known => exact .inr (.inl ⟨valid, known, rfl⟩)
    next unknown => exact .inr (.inr ⟨valid, unknown, rfl⟩)
  next invalid => exact .inl ⟨Bool.eq_false_iff.2 invalid, rfl⟩

theorem mergeEach_cons {outcome : Outcome} {after : Store} {time : Clock}
    (merged : store.merge submission.envelope submission.origin clock = (outcome, after, time)) :
    store.mergeEach (submission :: rest) clock
      = (outcome :: (after.mergeEach rest time).1, (after.mergeEach rest time).2) := by
  simp only [mergeEach, merged]

theorem validIds_cons_of_valid (valid : submission.isValid = true) :
    validIds (submission :: rest) = submission.id :: validIds rest := by
  simp [validIds, valid]

theorem validIds_cons_of_invalid (invalid : submission.isValid = false) :
    validIds (submission :: rest) = validIds rest := by
  simp [validIds, invalid]

end Step

/-! ## Many submissions -/

section Union

variable {store : Store} {clock : Clock} {submissions : List Submission} {id : RecordId}

theorem grows_mergeEach : store.Grows (store.mergeEach submissions clock).2.1 := by
  induction submissions generalizing store clock with
  | nil => exact .refl store
  | cons submission rest induction => exact grows_merge.trans induction

/-- Under an id that was free stands the first valid submission with this id. -/
theorem copy_mergeEach (free : store.find? id = none) :
    ((store.mergeEach submissions clock).2.1.find? id).map Entry.copy
      = (firstValid? id submissions).map Submission.copy := by
  induction submissions generalizing store clock with
  | nil => simp [mergeEach, free, firstValid?]
  | cons submission rest induction =>
      have merged : (store.merge submission.envelope submission.origin clock).2.1.find? id
          = if submission.isValid = true ∧ submission.id = id
            then some ⟨submission.envelope.record, submission.origin, clock.now + 1⟩
            else none := by
        rw [find?_merge, free, Option.none_or]
        rfl
      by_cases taken : submission.isValid = true ∧ submission.id = id
      · -- What is taken now is there ever after.
        rw [if_pos taken] at merged
        have kept (time : Clock) := @grows_mergeEach _ time rest _ _ merged
        have first : firstValid? id (submission :: rest) = some submission :=
          List.find?_cons_of_pos (by simpa using taken)
        rw [first, mergeEach, kept]
        rfl
      · rw [if_neg taken] at merged
        have later : firstValid? id (submission :: rest) = firstValid? id rest :=
          List.find?_cons_of_neg (by simpa using taken)
        rw [later, mergeEach]
        exact induction merged

theorem mem_ids_mergeEach_iff :
    id ∈ (store.mergeEach submissions clock).2.1.ids
      ↔ id ∈ store.ids ∨ id ∈ validIds submissions := by
  induction submissions generalizing store clock with
  | nil => simp [mergeEach, validIds]
  | cons submission rest induction =>
      obtain ⟨invalid, merged⟩ | ⟨valid, known, merged⟩ | ⟨valid, free, merged⟩ :=
        merge_cases store clock submission
      · rw [mergeEach_cons merged, validIds_cons_of_invalid invalid, induction]
      · rw [mergeEach_cons merged, validIds_cons_of_valid valid, induction, List.mem_cons]
        constructor
        · exact Or.imp_right .inr
        · rintro (before | rfl | later)
          · exact .inl before
          · exact .inl known
          · exact .inr later
      · rw [mergeEach_cons merged, validIds_cons_of_valid valid, induction, mem_ids_add_iff,
          List.mem_cons, or_left_comm, or_assoc]

/-- Submissions whose ids are known change nothing. -/
theorem mergeEach_of_known (known : ∀ id ∈ validIds submissions, id ∈ store.ids) :
    (store.mergeEach submissions clock).2 = (store, clock) := by
  induction submissions with
  | nil => rfl
  | cons submission rest induction =>
      obtain ⟨invalid, merged⟩ | ⟨valid, _, merged⟩ | ⟨valid, free, merged⟩ :=
        merge_cases store clock submission
      · rw [validIds_cons_of_invalid invalid] at known
        rw [mergeEach_cons merged, induction known]
      · rw [validIds_cons_of_valid valid] at known
        rw [mergeEach_cons merged, induction (List.forall_mem_cons.1 known).2]
      · rw [validIds_cons_of_valid valid] at known
        exact absurd (List.forall_mem_cons.1 known).1 free

/-! ## Batches -/

section Batch

variable {envelopes : List Envelope} {origin : Origin}

theorem grows_mergeBatch : store.Grows (store.mergeBatch origin envelopes clock).2.1 := by
  rw [mergeBatch_eq_mergeEach]
  exact grows_mergeEach

/-- An entry after a batch was there before or is the record of a valid envelope of
the batch. -/
theorem find?_mergeBatch {entry : Entry}
    (held : (store.mergeBatch origin envelopes clock).2.1.find? id = some entry) :
    store.find? id = some entry
      ∨ ∃ envelope ∈ envelopes, envelope.isValid = true ∧ envelope.record = entry.record
        ∧ entry.record.id = id ∧ entry.origin = origin := by
  rw [mergeBatch_eq_mergeEach] at held
  cases before : store.find? id with
  | some earlier => exact .inl ((grows_mergeEach id earlier before).symm.trans held)
  | none =>
      have copy := @copy_mergeEach store clock (envelopes.map (Submission.mk origin)) id before
      rw [held, Option.map_some] at copy
      obtain ⟨first, found, same⟩ := Option.map_eq_some_iff.1 copy.symm
      obtain ⟨among, valid, named⟩ := Submission.of_firstValid?_eq_some found
      obtain ⟨envelope, member, rfl⟩ := List.mem_map.1 among
      obtain ⟨record, place⟩ := Prod.mk.inj same
      exact .inr ⟨envelope, member, valid, record, record ▸ named, place.symm⟩

/-- After a batch the id of each of its valid envelopes is held. -/
theorem exists_find?_mergeBatch {envelope : Envelope} (member : envelope ∈ envelopes)
    (valid : envelope.isValid = true) :
    ∃ entry, (store.mergeBatch origin envelopes clock).2.1.find? envelope.record.id
      = some entry := by
  rw [mergeBatch_eq_mergeEach, ← mem_ids_iff, mem_ids_mergeEach_iff, Submission.mem_validIds_iff]
  exact .inr ⟨⟨origin, envelope⟩, List.mem_map_of_mem member, valid, rfl⟩

end Batch

/-! ## Outcomes -/

theorem card_insert_sdiff {key : RecordId} {keys others : Finset RecordId} (free : key ∉ others) :
    (insert key keys \ others).card = (keys \ insert key others).card + 1 := by
  have mem : key ∈ insert key keys \ others :=
    Finset.mem_sdiff.2 ⟨Finset.mem_insert_self _ _, free⟩
  rw [← Finset.card_erase_add_one mem, ← Finset.sdiff_insert, Finset.insert_sdiff_of_mem]
  exact Finset.mem_insert_self _ _

/-- What is inserted are the new ids of valid submissions, each once. -/
theorem card_new_eq_count_inserted :
    (store.mergeEach submissions clock).1.count .inserted
      = ((validIds submissions).toFinset \ store.ids.toFinset).card := by
  induction submissions generalizing store clock with
  | nil => simp [mergeEach, validIds]
  | cons submission rest induction =>
      obtain ⟨invalid, merged⟩ | ⟨valid, known, merged⟩ | ⟨valid, free, merged⟩ :=
        merge_cases store clock submission
      · rw [mergeEach_cons merged, validIds_cons_of_invalid invalid,
          List.count_cons_of_ne (by decide), induction]
      · rw [mergeEach_cons merged, validIds_cons_of_valid valid,
          List.count_cons_of_ne (by decide), induction, List.toFinset_cons,
          Finset.insert_sdiff_of_mem _ (List.mem_toFinset.2 known)]
      · have ids (time : Nat) : (store.add submission.envelope.record submission.id
            submission.origin time).ids.toFinset = insert submission.id store.ids.toFinset := by
          ext id
          simp [mem_ids_add_iff]
        rw [mergeEach_cons merged, validIds_cons_of_valid valid, List.count_cons_self, induction,
          List.toFinset_cons, card_insert_sdiff (mt List.mem_toFinset.1 free), ids]

theorem count_inserted_of_known (known : ∀ id ∈ validIds submissions, id ∈ store.ids) :
    (store.mergeEach submissions clock).1.count .inserted = 0 := by
  rw [card_new_eq_count_inserted, Finset.card_eq_zero, Finset.sdiff_eq_empty_iff_subset]
  intro id member
  rw [List.mem_toFinset] at member ⊢
  exact known id member

theorem nodup_ids (store : Store) : store.ids.Nodup :=
  Sorted.nodup_of_ascending store.records.ascending

theorem count_eq_card (store : Store) : store.count = store.ids.toFinset.card := by
  rw [List.toFinset_card_of_nodup store.nodup_ids, ids, Table.keys, List.length_map]
  rfl

/-- The store grows by what is inserted. -/
theorem count_mergeEach :
    (store.mergeEach submissions clock).2.1.count
      = store.count + (store.mergeEach submissions clock).1.count .inserted := by
  have ids : (store.mergeEach submissions clock).2.1.ids.toFinset
      = (validIds submissions).toFinset ∪ store.ids.toFinset := by
    ext id
    simp [mem_ids_mergeEach_iff, or_comm]
  rw [count_eq_card, count_eq_card, card_new_eq_count_inserted, ids, Nat.add_comm,
    Finset.card_sdiff_add_card]

/-- What is valid is inserted or known. -/
theorem count_inserted_add_count_duplicate :
    (store.mergeEach submissions clock).1.count .inserted
        + (store.mergeEach submissions clock).1.count .duplicate
      = submissions.countP Submission.isValid := by
  induction submissions generalizing store clock with
  | nil => rfl
  | cons submission rest induction =>
      obtain ⟨invalid, merged⟩ | ⟨valid, known, merged⟩ | ⟨valid, free, merged⟩ :=
        merge_cases store clock submission
      · rw [mergeEach_cons merged, List.count_cons_of_ne (by decide),
          List.count_cons_of_ne (by decide), induction,
          List.countP_cons_of_neg (Bool.eq_false_iff.1 invalid)]
      · rw [mergeEach_cons merged, List.count_cons_of_ne (by decide), List.count_cons_self,
          ← Nat.add_assoc, induction, List.countP_cons_of_pos valid]
      · rw [mergeEach_cons merged, List.count_cons_self, List.count_cons_of_ne (by decide),
          Nat.add_right_comm, induction, List.countP_cons_of_pos valid]

theorem count_rejected :
    (store.mergeEach submissions clock).1.count .rejected
      = submissions.countP fun submission => !submission.isValid := by
  induction submissions generalizing store clock with
  | nil => rfl
  | cons submission rest induction =>
      obtain ⟨invalid, merged⟩ | ⟨valid, known, merged⟩ | ⟨valid, free, merged⟩ :=
        merge_cases store clock submission
      · rw [mergeEach_cons merged, List.count_cons_self, induction,
          List.countP_cons_of_pos (by simp [invalid])]
      · rw [mergeEach_cons merged, List.count_cons_of_ne (by decide), induction,
          List.countP_cons_of_neg (by simp [valid])]
      · rw [mergeEach_cons merged, List.count_cons_of_ne (by decide), induction,
          List.countP_cons_of_neg (by simp [valid])]

end Union

/-! ## Runs -/

/-- A run of calls does what merging its submissions one by one does.  It adds the ids
of the valid submissions, and counts as inserted each new one of them once, as
duplicate the other valid submissions, and as rejected those that are not valid.
What is held stays, and a new id stands for the first valid submission with it.  Calls
that hand over the same submissions in another order and grouping add the same ids
with the same counts. -/
theorem run_unites (calls : List Call) (store : Store) (clock : Clock) :
    let submissions := calls.flatMap Call.submissions
    let outcomes := (store.run calls clock).1
    let after := (store.run calls clock).2.1
    store.run calls clock = store.mergeEach submissions clock
      ∧ (∀ id, id ∈ after.ids ↔ id ∈ store.ids
        ∨ ∃ submission ∈ submissions, submission.isValid = true ∧ submission.id = id)
      ∧ outcomes.count .inserted = ((validIds submissions).toFinset \ store.ids.toFinset).card
      ∧ outcomes.count .inserted + outcomes.count .duplicate
          = submissions.countP Submission.isValid
      ∧ outcomes.count .rejected = submissions.countP (fun submission => !submission.isValid)
      ∧ (∀ id, store.find? id = none →
        (after.find? id).map Entry.copy = (firstValid? id submissions).map Submission.copy)
      ∧ (∀ id entry, store.find? id = some entry → after.find? id = some entry)
      ∧ (∀ later time id entry, after.find? id = some entry →
        (after.run later time).2.1.find? id = some entry)
      ∧ ∀ others : List Call, submissions.Perm (others.flatMap Call.submissions) →
        (store.run others clock).2.1.ids = after.ids
          ∧ ∀ outcome, (store.run others clock).1.count outcome = outcomes.count outcome := by
  simp only [run_eq_mergeEach, ← Submission.mem_validIds_iff]
  generalize calls.flatMap Call.submissions = submissions
  refine ⟨trivial, fun id => mem_ids_mergeEach_iff, card_new_eq_count_inserted,
    count_inserted_add_count_duplicate, count_rejected, fun id => copy_mergeEach,
    grows_mergeEach, fun later time => grows_mergeEach, fun others perm => ?_⟩
  generalize others.flatMap Call.submissions = arranged at perm
  have ids : (validIds submissions).Perm (validIds arranged) := (perm.filter _).map _
  have inserted : (store.mergeEach arranged clock).1.count .inserted
      = (store.mergeEach submissions clock).1.count .inserted := by
    rw [card_new_eq_count_inserted, card_new_eq_count_inserted, List.toFinset_eq_of_perm _ _ ids]
  refine ⟨ids_eq_of_mem_iff fun id => ?_, fun outcome => ?_⟩
  · rw [mem_ids_mergeEach_iff, mem_ids_mergeEach_iff, ids.mem_iff]
  · cases outcome with
    | inserted => exact inserted
    | duplicate =>
        have total := @count_inserted_add_count_duplicate store clock submissions
        rw [perm.countP_eq, ← @count_inserted_add_count_duplicate store clock arranged] at total
        omega
    | rejected => rw [count_rejected, count_rejected, perm.countP_eq]

/-! ## Two copies of a record -/

/-- Records with one payload, told apart by their times. -/
def twin (time : UInt64) : Record := ⟨.empty, .logical time, ⟨"k"⟩, ⟨"s"⟩⟩

/-- The two copies in a batch, the second one with nothing known of its signature, and
the second one from a peer. -/
def together : List Call :=
  [.mergeBatch .here [⟨twin 1, .valid⟩, ⟨twin 2, .unverified⟩],
    .merge (.peer "u") ⟨twin 2, .valid⟩]

/-- The same one by one, and in the opposite order. -/
def apart : List Call :=
  [.merge (.peer "u") ⟨twin 2, .valid⟩, .merge .here ⟨twin 2, .unverified⟩,
    .merge .here ⟨twin 1, .valid⟩]

/-- The ids and the counts agree, but each run keeps the copy that came first. -/
theorem run_unites_twins :
    (empty.run apart {}).2.1.ids = (empty.run together {}).2.1.ids
      ∧ (∀ outcome,
        (empty.run apart {}).1.count outcome = (empty.run together {}).1.count outcome)
      ∧ ((empty.run together {}).2.1.find? (twin 1).id).map Entry.copy = some (twin 1, .here)
      ∧ ((empty.run apart {}).2.1.find? (twin 1).id).map Entry.copy
          = some (twin 2, .peer "u") := by
  obtain ⟨_, _, _, _, _, copy, _, _, arranged⟩ := run_unites together empty {}
  obtain ⟨_, _, _, _, _, copyApart, _⟩ := run_unites apart empty {}
  obtain ⟨ids, counts⟩ := arranged apart (List.reverse_perm _).symm
  have same : (twin 2).id = (twin 1).id := rfl
  refine ⟨ids, counts, (copy _ rfl).trans ?_, (copyApart _ rfl).trans ?_⟩
  · simp [firstValid?, together, Call.submissions, Submission.id, Submission.isValid,
      Envelope.isValid, Submission.copy]
  · simp [firstValid?, apart, Call.submissions, Submission.id, Submission.isValid,
      Envelope.isValid, Submission.copy, same]

end Store

end SignedFacts
