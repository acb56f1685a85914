import SignedFacts.Proofs.Table.Sorted
import SignedFacts.Store.Basic

/-!
# What merging does to a store

A store only grows.  After a merge it holds what it held before, and under a free
id the record of the envelope if the envelope is valid (`find?_merge`).
-/

namespace SignedFacts.Store

/-- Every entry of a store is in another one, unchanged. -/
def Grows (store later : Store) : Prop :=
  ∀ id entry, store.find? id = some entry → later.find? id = some entry

theorem Grows.refl (store : Store) : store.Grows store := fun _ _ held => held

theorem Grows.trans {first second third : Store} (earlier : first.Grows second)
    (later : second.Grows third) : first.Grows third :=
  fun id entry held => later id entry (earlier id entry held)

theorem contains_iff {store : Store} {id : RecordId} :
    store.contains id = true ↔ ∃ entry, store.find? id = some entry := by
  rw [contains, Table.contains, Option.isSome_iff_exists]
  rfl

theorem mem_ids_iff {store : Store} {id : RecordId} :
    id ∈ store.ids ↔ ∃ entry, store.find? id = some entry := by
  simp only [ids, Table.keys, List.mem_map, find?, Table.find?_eq_some_iff]
  constructor
  · rintro ⟨⟨_, entry⟩, member, rfl⟩
    exact ⟨entry, member⟩
  · rintro ⟨entry, member⟩
    exact ⟨(id, entry), member, rfl⟩

/-- Stores that hold the same ids list them in the same way. -/
theorem ids_eq_of_mem_iff {store other : Store} (same : ∀ id, id ∈ store.ids ↔ id ∈ other.ids) :
    store.ids = other.ids :=
  Sorted.keys_eq_of_mem_iff store.records.ascending other.records.ascending same

section Merge

variable {store : Store} {envelope : Envelope} {origin : Origin} {clock : Clock} {id : RecordId}

theorem records_index (record : Record) (key : RecordId) (store : Store) :
    (store.index record key).records = store.records := by
  rw [index]
  split <;> rfl

theorem find?_add {record : Record} {key : RecordId} {time : Nat} :
    (store.add record key origin time).find? id
      = if id = key then some ⟨record, origin, time⟩ else store.find? id := by
  simp only [add, find?, records_index, Table.find?_insert, Std.LawfulEqCmp.compare_eq_iff_eq]

theorem merge_eq :
    store.merge envelope origin clock
      = if envelope.isValid then
          if store.contains envelope.record.id then (.duplicate, store, clock)
          else (.inserted,
            store.add envelope.record envelope.record.id origin (clock.now + 1), ⟨clock.now + 1⟩)
        else (.rejected, store, clock) := rfl

/-- Only the store and the envelope decide what becomes of the envelope. -/
theorem outcome_merge :
    (store.merge envelope origin clock).1
      = if envelope.isValid then
          if store.contains envelope.record.id then .duplicate else .inserted
        else .rejected := by
  rw [merge_eq]
  split
  next => split <;> rfl
  next => rfl

theorem contains_eq_false_iff {store : Store} {id : RecordId} :
    store.contains id = false ↔ store.find? id = none := by
  simp [contains, Table.contains, find?]

/-- A valid envelope with a free id is added. -/
theorem merge_of_free (valid : envelope.isValid = true)
    (free : store.find? envelope.record.id = none) :
    store.merge envelope origin clock
      = (.inserted, store.add envelope.record envelope.record.id origin (clock.now + 1),
        ⟨clock.now + 1⟩) := by
  simp [merge_eq, valid, contains_eq_false_iff.2 free]

theorem entries_add_empty {record : Record} {key : RecordId} {time : Nat} :
    (Store.empty.add record key origin time).entries = [⟨record, origin, time⟩] := by
  rw [add, entries]
  simp only [records_index]
  rfl

/-- A merge leaves the entries as they are.  Under a free id it puts the record of
a valid envelope. -/
theorem find?_merge :
    (store.merge envelope origin clock).2.1.find? id
      = (store.find? id).or (if envelope.isValid = true ∧ envelope.record.id = id
          then some ⟨envelope.record, origin, clock.now + 1⟩ else none) := by
  rw [merge_eq]
  split
  next valid =>
    split
    next known =>
      obtain ⟨entry, held⟩ := contains_iff.1 known
      by_cases same : envelope.record.id = id
      · subst same
        simp [held]
      · simp [same]
    next unknown =>
      rw [Bool.not_eq_true, contains_eq_false_iff] at unknown
      by_cases same : envelope.record.id = id
      · subst same
        simp [find?_add, unknown, valid]
      · simp [find?_add, same, Ne.symm same]
  next invalid => simp [invalid]

/-- An envelope is inserted if it is valid and its id is free. -/
theorem merge_eq_inserted_iff :
    (store.merge envelope origin clock).1 = .inserted
      ↔ envelope.isValid = true ∧ store.find? envelope.record.id = none := by
  rw [← contains_eq_false_iff, merge_eq]
  split
  next valid =>
    split
    next known => simp [known]
    next unknown => simpa [valid] using unknown
  next invalid => simp [invalid]

theorem grows_merge : store.Grows (store.merge envelope origin clock).2.1 :=
  fun id entry held => by rw [find?_merge, held]; rfl

end Merge

end SignedFacts.Store
