import SignedFacts.Proofs.Engine.Export
import SignedFacts.Proofs.Engine.History
import SignedFacts.Proofs.Store.Time

/-!
# Logical time

The clock counts the records that are inserted and the rounds that complete.  What a
request does to an engine is to merge some submissions, after which a round may complete
(`exists_advances`).  So every time up to the present is the time of one record or the
time of one completed round (`Timed`), and what is new has a later time than all there was
(`time_gapless`).
-/

namespace SignedFacts.Engine

open Submission (fresh stamped)

/-- The times at which rounds completed. -/
def completions (past : List Past) : List Nat :=
  past.filterMap fun round => round.result.toOption

section Time

variable {engine after : Engine} {past : List Past} {completed : List Nat}
  {submissions : List Submission}

theorem completions_append {others : List Past} :
    completions (others ++ past) = completions others ++ completions past :=
  List.filterMap_append

theorem length_completions :
    (completions past).length = past.countP fun round => round.result.isOk := by
  induction past with
  | nil => rfl
  | cons round past induction =>
      obtain ⟨_, error | time⟩ := round
      · exact induction
      · exact (congrArg (· + 1) induction).trans (List.countP_cons_of_pos rfl).symm

/-! ## One request -/

/-- An engine in which submissions have been merged and rounds have completed after that. -/
structure Advances (engine : Engine) (submissions : List Submission) (completed : List Nat)
    (after : Engine) : Prop where
  usable : after.storeFault = none
  store : after.store = (engine.store.mergeEach submissions engine.clock).2.1
  times : completed = List.range'
    (engine.clock.now + 1 + (fresh engine.store.ids submissions).length) completed.length
  now : after.clock.now
    = engine.clock.now + (fresh engine.store.ids submissions).length + completed.length

theorem advances_refl (usable : engine.storeFault = none) : engine.Advances [] [] engine :=
  ⟨usable, rfl, rfl, rfl⟩

/-- A round that has received documents merges its submissions and completes. -/
theorem advances_pull {url : String} {documents : List String}
    (usable : engine.storeFault = none) (arrived : engine.received url = .ok documents) :
    engine.Advances (Round.submissions engine.verifier (Text.trim url) documents)
      [(engine.pull url).2.clock.now] (engine.pull url).2 := by
  have now := (@Store.mergeEach_stamps engine.store engine.clock
    (Round.submissions engine.verifier (Text.trim url) documents)).2.1
  rw [pull_of_documents usable arrived]
  refine ⟨usable, rfl, ?_, congrArg (· + 1) now⟩
  rw [List.length_singleton, List.range'_one, Nat.add_right_comm, ← now]
  rfl

/-- What a request does. -/
theorem exists_advances (usable : engine.storeFault = none) (request : Request) :
    ∃ submissions, engine.Advances submissions (completions (engine.pastOf request))
      (engine.serve request) := by
  cases request with
  | ingest document =>
      rw [serve]
      cases parsed : Record.parse document with
      | error cause =>
          rw [ingest_error parsed]
          exact ⟨[], advances_refl usable⟩
      | ok record =>
          rw [ingest_record usable parsed]
          have now := (@Store.mergeEach_stamps engine.store engine.clock
            [⟨.here, (Envelope.ofRecord record).verify engine.verifier⟩]).2.1
          exact ⟨_, usable, rfl, rfl, now⟩
  | respond url answer => exact ⟨[], usable, rfl, rfl, rfl⟩
  | pull url =>
      rw [serve, pastOf]
      by_cases blank : Text.trim url = ""
      · rw [pull_of_blank blank, if_pos blank]
        exact ⟨[], advances_refl usable⟩
      · rw [if_neg blank]
        cases arrived : engine.received url with
        | error error =>
            rw [(pull_of_missing blank arrived).2]
            exact ⟨[], usable, rfl, rfl, rfl⟩
        | ok documents =>
            have advances := advances_pull usable arrived
            simp only [congrArg Prod.fst (pull_of_documents usable arrived)]
            exact ⟨_, advances⟩

/-! ## Times before and after -/

/-- Every time that the clock has shown is that of one record or of one completed round. -/
structure Timed (past : List Past) (engine : Engine) : Prop where
  usable : engine.storeFault = none
  times : (engine.store.entries.map Entry.insertedAt ++ completions past).Perm
    (List.range' 1 engine.clock.now)

theorem timed_new (settings : Settings) : Timed [] (Engine.new settings) := ⟨rfl, .refl _⟩

/-- The new times follow on the old ones. -/
theorem Timed.advance (timed : Timed past engine) {rounds : List Past}
    (advances : engine.Advances submissions (completions rounds) after) :
    Timed (rounds ++ past) after := by
  refine ⟨advances.usable, ?_⟩
  rw [advances.store, advances.now, completions_append, advances.times]
  refine (Store.times_mergeEach.append_right _).trans ?_
  rw [List.length_range']
  generalize (completions rounds).length = count
  generalize (fresh engine.store.ids submissions).length = inserted
  have newLast (old inserted completed others : List Nat) :
      (old ++ inserted ++ (completed ++ others)).Perm
        (old ++ others ++ (inserted ++ completed)) := by
    rw [List.append_assoc, ← List.append_assoc inserted, List.append_assoc old others]
    exact List.perm_append_comm.append_left old
  refine (newLast _ _ _ _).trans ((timed.times.append_right _).trans ?_)
  rw [List.range'_append_1, Nat.add_comm engine.clock.now 1, List.range'_append_1, Nat.add_assoc]

theorem Timed.serve (timed : Timed past engine) (request : Request) :
    Timed (engine.pastOf request ++ past) (engine.serve request) := by
  obtain ⟨submissions, advances⟩ := exists_advances timed.usable request
  exact timed.advance advances

theorem Timed.serveAll (timed : Timed past engine) (requests : List Request) :
    Timed (engine.history requests ++ past) (engine.serveAll requests) := by
  induction requests generalizing engine past with
  | nil => exact timed
  | cons request requests induction =>
      rw [history, List.append_assoc]
      exact induction (timed.serve request)

theorem Timed.insertedAt_le (timed : Timed past engine) {entry : Entry}
    (member : entry ∈ engine.store.entries) : entry.insertedAt ≤ engine.clock.now := by
  have shown : entry.insertedAt ∈ List.range' 1 engine.clock.now :=
    timed.times.subset (List.mem_append_left _ (List.mem_map_of_mem member))
  rw [List.mem_range'_1] at shown
  omega

/-! ## Later on -/

/-- What is held stays, the clock does not go back, and what is new has a later time than
all there was. -/
structure Precedes (engine after : Engine) : Prop where
  grows : engine.store.Grows after.store
  now : engine.clock.now ≤ after.clock.now
  new : ∀ id entry, engine.store.find? id = none → after.store.find? id = some entry →
    engine.clock.now < entry.insertedAt

theorem Precedes.refl (engine : Engine) : engine.Precedes engine :=
  ⟨.refl _, Nat.le_refl _, fun id entry free held => by cases free.symm.trans held⟩

theorem Precedes.trans {last : Engine} (earlier : engine.Precedes after)
    (later : after.Precedes last) : engine.Precedes last := by
  refine ⟨earlier.grows.trans later.grows, earlier.now.trans later.now, ?_⟩
  intro id entry free held
  cases between : after.store.find? id with
  | none => exact Nat.lt_of_le_of_lt earlier.now (later.new id entry between held)
  | some present =>
      have same : present = entry :=
        Option.some.inj ((later.grows id present between).symm.trans held)
      exact earlier.new id entry free (same ▸ between)

theorem Advances.precedes (advances : engine.Advances submissions completed after) :
    engine.Precedes after := by
  obtain ⟨_, store, _, now⟩ := advances
  refine ⟨?_, by omega, fun id entry free held => ?_⟩
  · rw [store]
    exact Store.grows_mergeEach
  · rw [store] at held
    exact Store.lt_insertedAt_mergeEach free held

theorem precedes_serveAll (usable : engine.storeFault = none) (requests : List Request) :
    engine.Precedes (engine.serveAll requests) := by
  induction requests generalizing engine with
  | nil => exact .refl engine
  | cons request requests induction =>
      obtain ⟨_, advances⟩ := exists_advances usable request
      exact advances.precedes.trans (induction advances.usable)

/-! ## Rounds -/

section Round

variable {url : String} {documents : List String}

/-- What a round with these documents inserts. -/
def newFrom (url : String) (documents : List String) (engine : Engine) : List Submission :=
  fresh engine.store.ids (Round.submissions engine.verifier (Text.trim url) documents)

theorem inserted_summaryOf :
    (engine.summaryOf url documents).inserted = (engine.newFrom url documents).length :=
  Store.mergeEach_stamps.2.2

/-- What is inserted takes a time each, and the round takes one. -/
theorem tick_mergedFrom :
    (engine.mergedFrom url documents).2.2.tick.1
      = engine.clock.now + (engine.newFrom url documents).length + 1 :=
  congrArg (· + 1) Store.mergeEach_stamps.2.1

theorem find?_mergedFrom_iff {id : RecordId} {entry : Entry} :
    (engine.mergedFrom url documents).2.1.find? id = some entry
      ↔ engine.store.find? id = some entry
        ∨ ∃ place submission, (engine.newFrom url documents)[place]? = some submission
          ∧ submission.id = id ∧ entry
            = ⟨submission.envelope.record, submission.origin, engine.clock.now + 1 + place⟩ := by
  rw [mergedFrom, Store.find?_mergeEach_iff, Submission.mem_stamped_iff]
  rfl

/-- A round that receives documents gives the new ones among them the times that follow, in
their order, and takes the time after these itself. -/
theorem pull_stamps (timed : Timed past engine) (arrived : engine.received url = .ok documents) :
    let time := engine.clock.now + (engine.newFrom url documents).length + 1
    (∀ id entry, (engine.pull url).2.store.find? id = some entry
        ↔ engine.store.find? id = some entry
          ∨ ∃ place submission, (engine.newFrom url documents)[place]? = some submission
            ∧ submission.id = id ∧ entry
              = ⟨submission.envelope.record, submission.origin, engine.clock.now + 1 + place⟩)
      ∧ (engine.pull url).2.clock.now = time
      ∧ engine.pastOf (.pull url) = [⟨Text.trim url, .ok time⟩]
      ∧ ((engine.pull url).2.peers.peer? (Text.trim url)).bind Peer.lastSyncAt = some time
      ∧ ∀ id entry, (engine.pull url).2.store.find? id = some entry →
        entry.insertedAt < time := by
  intro time
  have filled : Text.trim url ≠ "" := by
    intro blank
    cases (received_of_blank blank).symm.trans arrived
  have pulled := pull_of_documents timed.usable arrived
  have store : (engine.pull url).2.store = (engine.mergedFrom url documents).2.1 :=
    congrArg (fun result => result.2.store) pulled
  have now : (engine.pull url).2.clock.now = time :=
    (congrArg (fun result => result.2.clock.now) pulled).trans tick_mergedFrom
  have peers : (engine.pull url).2.peers
      = (engine.peers.register (Text.trim url)).recordSuccess (Text.trim url)
        (engine.mergedFrom url documents).2.2.tick.1 :=
    congrArg (fun result => result.2.peers) pulled
  refine ⟨fun id entry => ?_, now, ?_, ?_, fun id entry held => ?_⟩
  · rw [store]
    exact find?_mergedFrom_iff
  · rw [pastOf, if_neg filled, ← now]
    simp only [congrArg Prod.fst pulled]
    rfl
  · rw [peers, Registry.peer?_recordSuccess_register, if_pos rfl, tick_mergedFrom]
    rfl
  · rw [store, find?_mergedFrom_iff] at held
    obtain before | ⟨place, submission, inside, _, rfl⟩ := held
    · have earlier := timed.insertedAt_le (List.mem_map_of_mem (Table.find?_eq_some_iff.1 before))
      exact Nat.lt_succ_of_le (Nat.le_add_right_of_le earlier)
    · obtain ⟨within, _⟩ := List.getElem?_eq_some_iff.1 inside
      have next : engine.clock.now + 1 + place < time := by
        simp only [time]
        omega
      exact next

/-- A round that fails takes no time. -/
theorem clock_of_failed {error : RoundError} (usable : engine.storeFault = none)
    (failed : (engine.pull url).1 = .error error) :
    (engine.pull url).2.store = engine.store ∧ (engine.pull url).2.clock = engine.clock := by
  have missing := (pull_eq_error_iff usable).1 failed
  by_cases blank : Text.trim url = ""
  · rw [pull_of_blank blank]
    exact ⟨rfl, rfl⟩
  · rw [(pull_of_missing blank missing).2]
    exact ⟨rfl, rfl⟩

end Round

/-- A document that is handed in takes a time if its record is inserted. -/
theorem ingest_stamps (usable : engine.storeFault = none) (document : List UInt8) :
    let after := (engine.ingest document).2
    (∃ id record, (engine.ingest document).1 = .ok ⟨id, .inserted⟩
        ∧ after.store.find? id = some ⟨record, .here, engine.clock.now + 1⟩
        ∧ after.clock.now = engine.clock.now + 1)
      ∨ ((∀ id, (engine.ingest document).1 ≠ .ok ⟨id, .inserted⟩)
        ∧ after.store = engine.store ∧ after.clock = engine.clock) := by
  cases parsed : Record.parse document with
  | error cause =>
      rw [ingest_error parsed]
      exact .inr ⟨nofun, rfl, rfl⟩
  | ok record =>
      rw [ingest_record usable parsed]
      obtain ⟨_, merged⟩ | ⟨_, _, merged⟩ | ⟨_, _, merged⟩ := Store.merge_cases engine.store
        engine.clock ⟨.here, (Envelope.ofRecord record).verify engine.verifier⟩
      · simp only [merged]
        exact .inr ⟨nofun, trivial, trivial⟩
      · simp only [merged]
        exact .inr ⟨nofun, trivial, trivial⟩
      · simp only [merged]
        refine .inl ⟨record.id, _, rfl, Store.find?_add.trans (if_pos ?_), trivial⟩
        exact congrArg Record.id (Envelope.record_verify _ _).symm

/-! ## All times -/

/-- The clock shows how many records there are and how many rounds have completed.  The
times of these are all different, and they are all the times from one to the present.  What is
inserted later has a later time.  A completed round gives what it inserts the times that
follow, in the order of the documents, and the time after these is the one its peer
was last synchronised at.  A round that fails takes no time, and a document that is handed in
takes one only if its record is inserted. -/
theorem time_gapless (settings : Settings) (requests : List Request) :
    let engine := (Engine.new settings).serveAll requests
    let past := (Engine.new settings).history requests
    let now := engine.clock.now
    let times := engine.store.entries.map Entry.insertedAt ++ completions past
    now = engine.store.count + past.countP (fun round => round.result.isOk)
      ∧ times.Nodup
      ∧ (∀ time, time ∈ times ↔ 1 ≤ time ∧ time ≤ now)
      ∧ (∀ later, engine.Precedes (engine.serveAll later))
      ∧ (∀ url summary, (engine.pull url).1 = .ok summary →
        let after := (engine.pull url).2
        let time := now + summary.inserted + 1
        ∃ documents, engine.received url = .ok documents
          ∧ summary.inserted = (engine.newFrom url documents).length
          ∧ (∀ id entry, after.store.find? id = some entry ↔ engine.store.find? id = some entry
            ∨ ∃ place submission, (engine.newFrom url documents)[place]? = some submission
              ∧ submission.id = id ∧ entry
                = ⟨submission.envelope.record, submission.origin, now + 1 + place⟩)
          ∧ after.clock.now = time
          ∧ engine.pastOf (.pull url) = [⟨Text.trim url, .ok time⟩]
          ∧ (after.peers.peer? (Text.trim url)).bind Peer.lastSyncAt = some time
          ∧ ∀ id entry, after.store.find? id = some entry → entry.insertedAt < time)
      ∧ (∀ url error, (engine.pull url).1 = .error error →
        (engine.pull url).2.store = engine.store ∧ (engine.pull url).2.clock = engine.clock)
      ∧ ∀ document,
        let after := (engine.ingest document).2
        (∃ id record, (engine.ingest document).1 = .ok ⟨id, .inserted⟩
            ∧ after.store.find? id = some ⟨record, .here, now + 1⟩ ∧ after.clock.now = now + 1)
          ∨ ((∀ id, (engine.ingest document).1 ≠ .ok ⟨id, .inserted⟩)
            ∧ after.store = engine.store ∧ after.clock = engine.clock) := by
  intro engine past now times
  have timed : Timed past engine := by
    have run := (timed_new settings).serveAll requests
    rwa [List.append_nil] at run
  refine ⟨?_, ?_, fun time => ?_, fun later => precedes_serveAll timed.usable later,
    fun url summary completed => ?_, fun url error failed => clock_of_failed timed.usable failed,
    fun document => ingest_stamps timed.usable document⟩
  · have count := timed.times.length_eq
    rw [List.length_range', List.length_append, List.length_map, ← List.length_map Entry.record,
      length_served, length_completions] at count
    exact count.symm
  · exact timed.times.nodup_iff.2 List.nodup_range'
  · rw [timed.times.mem_iff, List.mem_range'_1, Nat.add_comm, Nat.lt_succ_iff]
  · cases arrived : engine.received url with
    | error error => cases ((pull_eq_error_iff timed.usable).2 arrived).symm.trans completed
    | ok documents =>
        obtain rfl : engine.summaryOf url documents = summary :=
          Except.ok.inj ((congrArg Prod.fst (pull_of_documents timed.usable arrived)).symm.trans
            completed)
        refine ⟨documents, rfl, inserted_summaryOf, ?_⟩
        rw [inserted_summaryOf]
        exact pull_stamps timed arrived

end Time

/-! ## A record from a peer -/

/-- A peer is about to answer with a signed record. -/
def served : List Request :=
  [.respond "u" (.body (Utf8.octets (Response.ofRecords [signedRecord])))]

/-- An engine with this peer. -/
def supplied : Engine := (Engine.new {}).serveAll served

theorem received_supplied : supplied.received " u " = .ok [signedRecord.text] := by
  have allows : (Engine.new {}).Allows " u " (Utf8.octets (Response.ofRecords [signedRecord])) :=
    allows_ofRecords (by decide) length_signedRecord (by decide)
  have cut := split_served allows
  exact allows.brings.received.trans cut

theorem newFrom_supplied :
    supplied.newFrom " u " [signedRecord.text] = [⟨.peer "u", ⟨signedRecord, .valid⟩⟩] := by
  have genuine : ∀ record ∈ [signedRecord], record.Genuine fun _ => True := by
    intro record member
    rw [List.mem_singleton.1 member]
    exact ⟨trivial, check_signedRecord, parse_signedRecord⟩
  have strict : supplied.verifier = Ed25519.verify := rfl
  have judged : (Envelope.ofRecord signedRecord).verify Ed25519.verify = ⟨signedRecord, .valid⟩ :=
    congrArg (Envelope.mk signedRecord) check_signedRecord
  rw [newFrom, Round.submissions, strict, ← List.map_singleton, Round.records_text genuine,
    List.map_singleton, judged]
  exact Submission.fresh_of_new rfl List.not_mem_nil

/-- The record takes the first time and the round the second.  A round with a blank URL takes no
time. -/
theorem time_gapless_supplied :
    (supplied.pull " u ").2.store.find? signedRecord.id = some ⟨signedRecord, .peer "u", 1⟩
      ∧ ((supplied.pull " u ").2.peers.peer? "u").bind Peer.lastSyncAt = some 2
      ∧ (supplied.pull " u ").2.clock.now = 2
      ∧ (supplied.pull " ").2.clock.now = 0 := by
  have start : supplied.clock.now = 0 := rfl
  have completed : (supplied.pull " u ").1
      = .ok (supplied.summaryOf " u " [signedRecord.text]) :=
    congrArg Prod.fst (pull_of_documents rfl received_supplied)
  have run := time_gapless {} served
  rw [← supplied] at run
  obtain ⟨_, _, _, _, rounds, failures, _⟩ := run
  obtain ⟨documents, received, inserted, held, now, _, last, _⟩ := rounds _ _ completed
  obtain rfl : [signedRecord.text] = documents :=
    Except.ok.inj (received_supplied.symm.trans received)
  have one := inserted.trans (congrArg List.length newFrom_supplied)
  rw [newFrom_supplied, start] at held
  rw [one, start] at now last
  refine ⟨(held _ _).2 (.inr ⟨0, _, rfl, rfl, rfl⟩), last, now, ?_⟩
  have blank : Text.trim " " = "" := rfl
  have refused : (supplied.pull " ").1 = .error (.invalidUrl " ") :=
    congrArg Prod.fst (pull_of_blank blank)
  exact congrArg Clock.now (failures _ _ refused).2

end SignedFacts.Engine
