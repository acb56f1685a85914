import SignedFacts.Proofs.Engine.Authentic
import SignedFacts.Proofs.Store.Signers

/-!
# Looking up records by their signer

The store of an engine is one that merges have led to (`reachable_run`).  In such a store
the entries under a key are those whose key text stands for it, however the text is
spelled, and all the ways to look at the store agree (`bySigner_mirrors`).
-/

namespace SignedFacts.Engine

/-! ## The store of an engine -/

section Reachable

variable {engine : Engine}

/-- What a round merges has been shown to the verifier. -/
theorem arises_of_mem_admitted {verifier : Verifier}
    {documents : Except RoundError (List String)} :
    ∀ envelope ∈ admitted verifier documents, envelope.Arises := by
  intro envelope member
  obtain ⟨_, _, _, _, record, _, _, rfl⟩ := mem_admitted_iff.1 member
  exact .verify verifier (.ofRecord record)

/-- What a document or a round does to the store is a merge. -/
theorem reachable_perform (usable : engine.storeFault = none)
    (reachable : engine.store.Reachable) (call : Call) :
    (engine.perform call).storeFault = none ∧ (engine.perform call).store.Reachable := by
  cases call with
  | ingest document =>
      refine ⟨(sameSetup_ingest engine document).storeFault.trans usable, ?_⟩
      rw [perform]
      cases parsed : Record.parse document with
      | error cause =>
          rw [ingest_error parsed]
          exact reachable
      | ok record =>
          rw [ingest_record usable parsed]
          exact .merge .here engine.clock reachable (.verify _ (.ofRecord record))
  | pull url transport =>
      obtain ⟨same, store⟩ := @pull_spec { engine with transport := transport } url usable
      rw [perform, store]
      exact ⟨same.storeFault.trans usable, .mergeBatch _ _ reachable arises_of_mem_admitted⟩

theorem reachable_run (settings : Settings) (calls : List Call) :
    ((Engine.new settings).run calls).store.Reachable := by
  suffices general : ∀ engine : Engine, engine.storeFault = none → engine.store.Reachable →
      (engine.run calls).store.Reachable from general _ rfl .empty
  induction calls with
  | nil => exact fun _ _ reachable => reachable
  | cons call calls induction =>
      intro engine usable reachable
      obtain ⟨still, next⟩ := reachable_perform usable reachable call
      exact induction _ still next

end Reachable

/-! ## Two tables and one set of records -/

/-- In a store that merges have led to, the entries under a key are all those whose key text
stands for it, in order of their ids.  So every entry is found under one key.  The ids ascend,
the entries stand in the same order, and looking for an id finds the entry with it.  An
engine with this store finds the same entries by any text of a key. -/
theorem bySigner_mirrors {store : Store} (reachable : store.Reachable) :
    (∀ key, store.bySigner key
          = store.entries.filter (fun entry => entry.record.signerKey.decode? = some key)
        ∧ ((store.bySigner key).map fun entry => entry.record.id).Pairwise
          fun x y => compare x y = .lt)
      ∧ (∀ entry ∈ store.entries, ∃! key, entry ∈ store.bySigner key)
      ∧ store.entries.map (fun entry => entry.record.id) = store.ids
      ∧ store.ids.Pairwise (fun x y => compare x y = .lt)
      ∧ store.count = store.ids.length
      ∧ (∀ id, store.contains id = true ↔ id ∈ store.ids)
      ∧ (∀ id entry, store.find? id = some entry ↔ entry ∈ store.entries ∧ entry.record.id = id)
      ∧ ∀ (engine : Engine) (first second : KeyText) (octets : List UInt8),
        engine.store = store → first.decode? = some octets → second.decode? = some octets →
        engine.recordsBySigner first = .ok (store.bySigner octets)
          ∧ engine.recordsBySigner second = engine.recordsBySigner first := by
  have mirrored := reachable.mirrored
  refine ⟨fun key => ⟨mirrored.bySigner_eq key, ?_⟩, fun entry member => ?_,
    mirrored.map_id_entries, store.ascending_ids, store.count_eq_length,
    fun id => Store.contains_iff.trans Store.mem_ids_iff.symm, fun id entry => mirrored.find?_iff,
    fun engine first second octets same decoded decodedToo => ?_⟩
  · -- The entries under a key are some of all entries, whose ids ascend.
    have some : ((store.bySigner key).map fun entry => entry.record.id).Sublist store.ids := by
      rw [mirrored.bySigner_eq, ← mirrored.map_id_entries]
      exact List.filter_sublist.map _
    exact store.ascending_ids.sublist some
  · have held := mirrored.find?_iff.2 ⟨member, rfl⟩
    obtain ⟨key, decoded⟩ := mirrored.decodes _ _ held
    have under (other : List UInt8) : entry ∈ store.bySigner other ↔ other = key := by
      rw [mirrored.bySigner_eq, List.mem_filter, decoded]
      simp [member, eq_comm]
    exact ⟨key, (under key).2 rfl, fun other found => (under other).1 found⟩
  · subst same
    simp only [recordsBySigner, decoded, decodedToo, and_self]

/-- A record whose key is written in hexadecimal digits is found by the base64 text of this
key, too. -/
theorem bySigner_mirrors_signedRecord :
    let engine := (Engine.new {}).run [.ingest (Utf8.octets signedRecord.chars)]
    let octets := (signedRecord.signerKey.decode?).getD []
    ∃ entries, engine.recordsBySigner signedRecord.signerKey = .ok entries
      ∧ engine.recordsBySigner (.ofBase64 octets) = .ok entries
      ∧ ⟨signedRecord, .here, 1⟩ ∈ entries := by
  have held : ((Engine.new {}).run [.ingest (Utf8.octets signedRecord.chars)]).store.find?
      signedRecord.id = some ⟨signedRecord, .here, 1⟩ := by
    rw [run, run, perform]
    exact find?_ingest_signedRecord rfl rfl (Table.find?_empty _)
  intro engine octets
  have decoded : signedRecord.signerKey.decode? = some octets := by decide +kernel
  have decodedToo : (KeyText.ofBase64 octets).decode? = some octets := by decide +kernel
  obtain ⟨under, _, _, _, _, _, listed, found⟩ := bySigner_mirrors (reachable_run {} _)
  obtain ⟨first, second⟩ := found engine _ _ octets rfl decoded decodedToo
  refine ⟨_, first, second.trans first, ?_⟩
  rw [(under octets).1, List.mem_filter, decoded]
  exact ⟨((listed _ _).1 held).1, decide_eq_true rfl⟩

end SignedFacts.Engine
