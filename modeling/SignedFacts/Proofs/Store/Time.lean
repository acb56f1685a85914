import SignedFacts.Proofs.Store.Union

/-!
# When entries are inserted

Of the submissions that are merged one after the other, `Submission.fresh` are those that
bring a new id.  Exactly these become entries, and each takes the next tick of the clock.
So the entries after the merges are those before and one for each fresh submission,
stamped with the times that follow on the clock (`mergeEach_stamps`).
-/

namespace SignedFacts

namespace Submission

/-- The valid submissions whose ids are neither held nor those of earlier ones. -/
def fresh (held : List RecordId) : List Submission → List Submission
  | [] => []
  | submission :: rest =>
      if submission.isValid = true ∧ submission.id ∉ held then
        submission :: fresh (submission.id :: held) rest
      else fresh held rest

/-- The entries of submissions that are inserted one after the other, the first one at
`time`. -/
def stamped (time : Nat) : List Submission → List (RecordId × Entry)
  | [] => []
  | submission :: rest =>
      (submission.id, ⟨submission.envelope.record, submission.origin, time⟩)
        :: stamped (time + 1) rest

section Fresh

variable {held others : List RecordId} {submissions rest : List Submission}
  {submission : Submission} {time : Nat}

/-- It only matters which ids are held. -/
theorem fresh_congr (same : ∀ id, id ∈ held ↔ id ∈ others) :
    fresh held submissions = fresh others submissions := by
  induction submissions generalizing held others with
  | nil => rfl
  | cons submission rest induction =>
      have next : ∀ id, id ∈ submission.id :: held ↔ id ∈ submission.id :: others := by
        intro id
        rw [List.mem_cons, List.mem_cons, same]
      simp only [fresh, same, induction same, induction next]

theorem fresh_of_invalid (invalid : submission.isValid = false) :
    fresh held (submission :: rest) = fresh held rest :=
  if_neg fun taken => by simp [invalid] at taken

theorem fresh_of_known (known : submission.id ∈ held) :
    fresh held (submission :: rest) = fresh held rest :=
  if_neg fun taken => taken.2 known

theorem fresh_of_new (valid : submission.isValid = true) (free : submission.id ∉ held) :
    fresh held (submission :: rest) = submission :: fresh (submission.id :: held) rest :=
  if_pos ⟨valid, free⟩

theorem getElem?_stamped (place : Nat) :
    (stamped time submissions)[place]? = submissions[place]?.map fun submission =>
      (submission.id, ⟨submission.envelope.record, submission.origin, time + place⟩) := by
  induction submissions generalizing time place with
  | nil => rfl
  | cons submission rest induction =>
      cases place with
      | zero => rfl
      | succ place =>
          rw [stamped, List.getElem?_cons_succ, List.getElem?_cons_succ, induction,
            Nat.add_right_comm time 1 place]
          rfl

theorem mem_stamped_iff {id : RecordId} {entry : Entry} :
    (id, entry) ∈ stamped time submissions
      ↔ ∃ place submission, submissions[place]? = some submission ∧ submission.id = id
        ∧ entry = ⟨submission.envelope.record, submission.origin, time + place⟩ := by
  rw [List.mem_iff_getElem?]
  refine exists_congr fun place => ?_
  rw [getElem?_stamped, Option.map_eq_some_iff]
  refine exists_congr fun submission => and_congr_right fun _ => ?_
  rw [Prod.mk.injEq, @eq_comm _ entry]

/-- The times of the entries follow each other without a gap. -/
theorem times_stamped :
    (stamped time submissions).map (fun entry => entry.2.insertedAt)
      = List.range' time submissions.length := by
  induction submissions generalizing time with
  | nil => rfl
  | cons submission rest induction =>
      rw [stamped, List.map_cons, induction, List.length_cons, List.range'_succ]

end Fresh

end Submission

namespace Store

open Submission (fresh stamped)

section Stamps

variable {store : Store} {clock : Clock} {submissions : List Submission}

/-- A new id comes with one entry more. -/
theorem entries_add_perm {record : Record} {id : RecordId} {origin : Origin} {time : Nat}
    (free : id ∉ store.ids) :
    (store.add record id origin time).records.entries.Perm
      ((id, ⟨record, origin, time⟩) :: store.records.entries) := by
  rw [add, records_index]
  exact Sorted.insert_perm free

/-- Merging adds the fresh submissions, in their order and at the times that follow. -/
theorem mergeEach_stamps :
    (store.mergeEach submissions clock).2.1.records.entries.Perm
        (store.records.entries ++ stamped (clock.now + 1) (fresh store.ids submissions))
      ∧ (store.mergeEach submissions clock).2.2.now
        = clock.now + (fresh store.ids submissions).length
      ∧ (store.mergeEach submissions clock).1.count .inserted
        = (fresh store.ids submissions).length := by
  induction submissions generalizing store clock with
  | nil =>
      rw [mergeEach, fresh, stamped, List.append_nil]
      exact ⟨.refl _, rfl, rfl⟩
  | cons submission rest induction =>
      obtain ⟨invalid, merged⟩ | ⟨valid, known, merged⟩ | ⟨valid, free, merged⟩ :=
        merge_cases store clock submission
      · rw [mergeEach_cons merged, Submission.fresh_of_invalid invalid,
          List.count_cons_of_ne (by decide)]
        exact induction
      · rw [mergeEach_cons merged, Submission.fresh_of_known known,
          List.count_cons_of_ne (by decide)]
        exact induction
      · have ids : fresh (store.add submission.envelope.record submission.id submission.origin
            (clock.now + 1)).ids rest = fresh (submission.id :: store.ids) rest :=
          Submission.fresh_congr fun id => mem_ids_add_iff.trans List.mem_cons.symm
        obtain ⟨entries, now, inserted⟩ := @induction
          (store.add submission.envelope.record submission.id submission.origin (clock.now + 1))
          ⟨clock.now + 1⟩
        rw [ids] at entries now inserted
        rw [mergeEach_cons merged, Submission.fresh_of_new valid free, List.count_cons_self,
          List.length_cons, stamped]
        refine ⟨entries.trans ?_, now.trans (Nat.succ_add_eq_add_succ _ _),
          congrArg (· + 1) inserted⟩
        exact ((entries_add_perm free).append_right _).trans List.perm_middle.symm

/-- What is held afterwards was held before or is fresh. -/
theorem find?_mergeEach_iff {id : RecordId} {entry : Entry} :
    (store.mergeEach submissions clock).2.1.find? id = some entry
      ↔ store.find? id = some entry
        ∨ (id, entry) ∈ stamped (clock.now + 1) (fresh store.ids submissions) := by
  rw [find?, Table.find?_eq_some_iff, mergeEach_stamps.1.mem_iff, List.mem_append,
    ← Table.find?_eq_some_iff]
  rfl

/-- What is held afterwards and was not held before has a time that comes after. -/
theorem lt_insertedAt_mergeEach {id : RecordId} {entry : Entry} (free : store.find? id = none)
    (held : (store.mergeEach submissions clock).2.1.find? id = some entry) :
    clock.now < entry.insertedAt := by
  rw [find?_mergeEach_iff, free, Submission.mem_stamped_iff] at held
  obtain before | ⟨place, submission, _, _, rfl⟩ := held
  · cases before
  · exact Nat.lt_of_lt_of_le (Nat.lt_succ_self _) (Nat.le_add_right _ _)

/-- The times of insertion are those from before and those that follow on the clock. -/
theorem times_mergeEach :
    ((store.mergeEach submissions clock).2.1.entries.map Entry.insertedAt).Perm
      (store.entries.map Entry.insertedAt
        ++ List.range' (clock.now + 1) (fresh store.ids submissions).length) := by
  have stamps := (@mergeEach_stamps store clock submissions).1.map fun entry => entry.2.insertedAt
  rw [List.map_append, Submission.times_stamped] at stamps
  simpa only [entries, Table.values, List.map_map, Function.comp_def] using stamps

end Stamps

end Store

end SignedFacts
