import SignedFacts.Proofs.Peer.Registry
import SignedFacts.Proofs.Store.Union

/-!
# The index of signers

A store keeps a second table, from the octets of keys to ids.  In a store that
merges have led to, this table mirrors the records (`Reachable.mirrored`): an id is
listed under a key exactly if its record is signed with a text of this key.  A record
whose key text stands for no octets would be in one table only, but no verifier lets
such a record pass (`Envelope.Arises.decodes`).

So the entries under a key are all entries with a text of this key, in the order in
which the store lists them (`Mirrored.bySigner_eq`).
-/

namespace SignedFacts

/-! ## Envelopes and what is known of them -/

/-- An envelope that starts out unverified and is shown to verifiers only. -/
inductive Envelope.Arises : Envelope → Prop where
  | ofRecord (record : Record) : Arises (.ofRecord record)
  | verify {envelope : Envelope} (verifier : Verifier) :
      Arises envelope → Arises (envelope.verify verifier)

/-- Only a verifier decides a status. -/
theorem Envelope.Arises.status {envelope : Envelope} (arises : envelope.Arises) :
    envelope.status = .unverified
      ∨ ∃ verifier, envelope.status = envelope.record.check verifier := by
  induction arises with
  | ofRecord record => exact .inl rfl
  | verify verifier _ induction =>
      rw [Envelope.verify.eq_def]
      split
      next => exact .inr ⟨verifier, rfl⟩
      next => exact induction

/-- A valid envelope has a key. -/
theorem Envelope.Arises.decodes {envelope : Envelope} (arises : envelope.Arises)
    (valid : envelope.isValid = true) :
    ∃ key, envelope.record.signerKey.decode? = some key := by
  rw [isValid, decide_eq_true_iff] at valid
  rcases arises.status with unknown | ⟨verifier, decided⟩
  · rw [unknown] at valid
    cases valid
  · rw [decided, Record.check.eq_def] at valid
    cases decoded : envelope.record.signerKey.decode? with
    | none => simp [decoded] at valid
    | some key => exact ⟨key, rfl⟩

namespace Store

/-! ## Stores that merges lead to -/

/-- A store that merges have led to from the store without records.  Each merge comes
with a clock of its own. -/
inductive Reachable : Store → Prop where
  | empty : Reachable .empty
  | merge {store : Store} {envelope : Envelope} (origin : Origin) (clock : Clock) :
      Reachable store → envelope.Arises → Reachable (store.merge envelope origin clock).2.1
  | mergeBatch {store : Store} {envelopes : List Envelope} (origin : Origin) (clock : Clock) :
      Reachable store → (∀ envelope ∈ envelopes, envelope.Arises) →
        Reachable (store.mergeBatch origin envelopes clock).2.1

/-- The ids that the index lists under a key. -/
def indexed (key : List UInt8) (store : Store) : List RecordId :=
  ((store.signers.find? key).getD .empty).keys

/-- Every entry stands under the id of its record, and the index lists it under the key
of its signer and nowhere else. -/
structure Mirrored (store : Store) : Prop where
  named : ∀ id entry, store.find? id = some entry → entry.record.id = id
  decodes : ∀ id entry, store.find? id = some entry →
    ∃ key, entry.record.signerKey.decode? = some key
  listed : ∀ key id, id ∈ store.indexed key
    ↔ ∃ entry, store.find? id = some entry ∧ entry.record.signerKey.decode? = some key

theorem mirrored_empty : Store.empty.Mirrored := by
  refine ⟨nofun, nofun, fun key id => ?_⟩
  simp [Store.indexed, Store.empty, Table.keys, Table.empty, find?, Table.find?, Sorted.find?]

section Step

variable {store : Store} {envelope : Envelope} {origin : Origin} {clock : Clock}

/-- A record is added to the list of its signer only. -/
theorem mem_indexed_add {record : Record} {id other : RecordId} {key octets : List UInt8}
    {time : Nat} (decoded : record.signerKey.decode? = some octets) :
    other ∈ (store.add record id origin time).indexed key
      ↔ (key = octets ∧ other = id) ∨ other ∈ store.indexed key := by
  have signers : (store.add record id origin time).signers
      = store.signers.update octets .empty (·.insert id ()) := by
    simp only [add, index, decoded]
  rw [indexed, signers, Table.find?_update, indexed]
  by_cases same : key = octets
  · subst same
    rw [if_pos Std.ReflCmp.compare_self, Option.getD_some, Table.keys, Table.keys, Table.insert,
      Sorted.mem_keys_insert]
    simp
  · rw [if_neg (mt Std.LawfulEqCmp.compare_eq_iff_eq.1 same)]
    simp [same]

/-- The entries under a key are those of the ids listed there. -/
theorem bySigner_eq_filterMap (key : List UInt8) (store : Store) :
    store.bySigner key = (store.indexed key).filterMap store.find? := by
  rw [bySigner.eq_def, indexed]
  cases store.signers.find? key <;> rfl

/-- A record that is added is found under its key. -/
theorem mem_bySigner_add {record : Record} {id : RecordId} {octets : List UInt8} {time : Nat}
    (decoded : record.signerKey.decode? = some octets) :
    ⟨record, origin, time⟩ ∈ (store.add record id origin time).bySigner octets := by
  rw [bySigner_eq_filterMap, List.mem_filterMap]
  refine ⟨id, (mem_indexed_add decoded).2 (.inl ⟨rfl, rfl⟩), ?_⟩
  rw [find?_add, if_pos rfl]

/-- A new record that has a key is added to both tables. -/
theorem Mirrored.add (mirrored : store.Mirrored) {record : Record} {octets : List UInt8}
    {time : Nat} (free : store.find? record.id = none)
    (decoded : record.signerKey.decode? = some octets) :
    (store.add record record.id origin time).Mirrored := by
  refine ⟨fun id entry held => ?_, fun id entry held => ?_, fun key id => ?_⟩
  · rw [find?_add] at held
    split at held
    next same =>
      cases held
      exact same.symm
    next => exact mirrored.named id entry held
  · rw [find?_add] at held
    split at held
    next =>
      cases held
      exact ⟨octets, decoded⟩
    next => exact mirrored.decodes id entry held
  · rw [mem_indexed_add decoded, mirrored.listed, find?_add]
    by_cases same : id = record.id
    · subst same
      simp [free, decoded, eq_comm]
    · simp [same]

/-- A merge keeps the tables together, since what is valid has a key. -/
theorem Mirrored.merge (mirrored : store.Mirrored) (arises : envelope.Arises) :
    (store.merge envelope origin clock).2.1.Mirrored := by
  obtain ⟨_, merged⟩ | ⟨_, _, merged⟩ | ⟨valid, free, merged⟩ :=
    merge_cases store clock ⟨origin, envelope⟩
  · rw [merged]
    exact mirrored
  · rw [merged]
    exact mirrored
  · obtain ⟨octets, decoded⟩ := arises.decodes valid
    rw [merged]
    refine mirrored.add ?_ decoded
    rw [mem_ids_iff] at free
    exact Option.eq_none_iff_forall_ne_some.2 fun entry held => free ⟨entry, held⟩

theorem Mirrored.mergeBatch {envelopes : List Envelope} (mirrored : store.Mirrored)
    (arise : ∀ envelope ∈ envelopes, envelope.Arises) :
    (store.mergeBatch origin envelopes clock).2.1.Mirrored := by
  induction envelopes generalizing store clock with
  | nil => exact mirrored
  | cons envelope rest induction =>
      obtain ⟨first, others⟩ := List.forall_mem_cons.1 arise
      exact induction (mirrored.merge first) others

end Step

theorem Reachable.mirrored {store : Store} (reachable : store.Reachable) : store.Mirrored := by
  induction reachable with
  | empty => exact mirrored_empty
  | merge origin clock _ arises induction => exact induction.merge arises
  | mergeBatch origin clock _ arise induction => exact induction.mergeBatch arise

/-! ## What a store lists -/

section Listing

variable {store : Store}

theorem ascending_ids : store.ids.Pairwise fun x y => compare x y = .lt :=
  Sorted.ascending_iff_keys.1 store.records.ascending

theorem count_eq_length : store.count = store.ids.length := (List.length_map _).symm

/-- The entries have the ids under which they stand. -/
theorem Mirrored.map_id_entries (mirrored : store.Mirrored) :
    store.entries.map (fun entry => entry.record.id) = store.ids := by
  rw [entries, ids, Table.values, Table.keys, List.map_map]
  exact List.map_congr_left fun entry member =>
    mirrored.named entry.1 entry.2 (Table.find?_eq_some_iff.2 member)

theorem Mirrored.find?_iff (mirrored : store.Mirrored) {id : RecordId} {entry : Entry} :
    store.find? id = some entry ↔ entry ∈ store.entries ∧ entry.record.id = id := by
  rw [entries, Table.values, List.mem_map]
  constructor
  · intro held
    exact ⟨⟨(id, entry), Table.find?_eq_some_iff.1 held, rfl⟩, mirrored.named id entry held⟩
  · rintro ⟨⟨⟨key, _⟩, member, rfl⟩, rfl⟩
    have held : store.find? key = some _ := Table.find?_eq_some_iff.2 member
    rwa [mirrored.named key _ held]

/-- The entries under a key are those whose key text stands for it, in the order of
all. -/
theorem Mirrored.bySigner_eq (mirrored : store.Mirrored) (key : List UInt8) :
    store.bySigner key
      = store.entries.filter fun entry => entry.record.signerKey.decode? = some key := by
  -- Both lists of ids ascend, and so it is enough that they hold the same ids.
  have ids : store.indexed key
      = (store.records.entries.filter fun entry =>
        entry.2.record.signerKey.decode? = some key).map (·.1) := by
    refine Sorted.keys_eq_of_mem_iff ((store.signers.find? key).getD .empty).ascending
      (store.records.ascending.filter _) fun id => ?_
    refine (mirrored.listed key id).trans ?_
    simp only [List.mem_map, List.mem_filter, decide_eq_true_iff, Prod.exists, exists_and_right,
      exists_eq_right, find?, Table.find?_eq_some_iff]
  rw [bySigner_eq_filterMap, ids, List.filterMap_map, entries, Table.values, List.filter_map,
    ← List.filterMap_eq_map]
  refine List.filterMap_congr fun entry member => ?_
  exact Table.find?_eq_some_iff.2 (List.mem_of_mem_filter member)

end Listing

end Store

end SignedFacts
