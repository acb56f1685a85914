import SignedFacts.Proofs.Store.Union
import SignedFacts.Store.Digest

/-!
# What digests tell

Ids are put in order and each is kept once before they are hashed, so the octets that
are hashed depend on the set of ids only.  They also determine this set
(`preimage_eq_iff`): the marker and the number of ids have a fixed width and so has
each id, so what follows them can be cut in one way only.  The hash is left as it is.
A comparison of two digests is right unless the octets of the two sides are different
octets with one hash, and nothing is asked of any other octets.
-/

namespace SignedFacts

namespace Digest

variable {ids others : List RecordId} {id : RecordId}

/-! ## The set of ids -/

theorem mem_distinct_iff : id ∈ distinct ids ↔ id ∈ ids := by
  rw [distinct, Sorted.mem_keys_collect, List.map_map]
  simp

/-- The ordered list is the same for every list with these members. -/
theorem distinct_eq_iff : distinct ids = distinct others ↔ ∀ id, id ∈ ids ↔ id ∈ others := by
  constructor
  · intro same id
    rw [← mem_distinct_iff, same, mem_distinct_iff]
  · intro same
    refine Sorted.keys_eq_of_mem_iff (Sorted.ascending_collect _ _) (Sorted.ascending_collect _ _)
      fun id => ?_
    exact mem_distinct_iff.trans ((same id).trans mem_distinct_iff.symm)

/-! ## The octets that are hashed -/

theorem octets_injective : Function.Injective fun id : RecordId => id.octets.toList := by
  intro id other same
  cases id
  cases other
  exact congrArg RecordId.mk (Vector.toList_inj.1 same)

/-- Ids of fixed width can be told apart without anything between them. -/
theorem eq_of_flatMap_octets_eq
    (same : ids.flatMap (·.octets.toList) = others.flatMap (·.octets.toList)) : ids = others := by
  have width (id : RecordId) : id.octets.toList.length = 32 := Vector.length_toList
  have filled (id : RecordId) : id.octets.toList ≠ [] :=
    List.ne_nil_of_length_pos ((width id).symm ▸ by decide)
  induction ids generalizing others with
  | nil =>
      cases others with
      | nil => rfl
      | cons other others => exact absurd (List.append_eq_nil_iff.1 same.symm).1 (filled other)
  | cons id ids induction =>
      cases others with
      | nil => exact absurd (List.append_eq_nil_iff.1 same).1 (filled id)
      | cons other others =>
          rw [List.flatMap_cons, List.flatMap_cons] at same
          obtain ⟨first, rest⟩ := List.append_inj same ((width id).trans (width other).symm)
          rw [octets_injective first, induction rest]

/-- The octets that are hashed stand for the set of ids. -/
theorem preimage_eq_iff : preimage ids = preimage others ↔ ∀ id, id ∈ ids ↔ id ∈ others := by
  rw [← distinct_eq_iff]
  constructor
  · intro same
    -- The number is of no use here, since the ids alone fill what is left.
    obtain ⟨_, rest⟩ := List.append_inj same (by simp)
    exact eq_of_flatMap_octets_eq rest
  · intro same
    rw [preimage, preimage, same]

/-- Two different strings of octets have one hash. -/
def Collide (octets others : List UInt8) : Prop :=
  octets ≠ others ∧ Blake3.hash octets = Blake3.hash others

theorem ofIds_eq_iff (sound : ¬ Collide (preimage ids) (preimage others)) :
    ofIds ids = ofIds others ↔ ∀ id, id ∈ ids ↔ id ∈ others := by
  rw [← preimage_eq_iff]
  constructor
  · intro same
    by_contra different
    exact sound ⟨different, Digest.mk.inj same⟩
  · intro same
    rw [ofIds, ofIds, same]

end Digest

/-! ## Comparing stores -/

namespace Store

open Submission (validIds)

variable {store other : Store} {id : RecordId}

theorem compareDigest_eq_converged_iff {there : Digest} :
    store.compareDigest there = .converged ↔ store.digest = there := by
  rw [compareDigest]
  split
  next same => exact iff_of_true rfl same
  next different => exact iff_of_false nofun different

/-- The octets that are hashed for two stores are different and have one hash. -/
def Collide (store other : Store) : Prop :=
  Digest.Collide (Digest.preimage store.ids) (Digest.preimage other.ids)

theorem not_collide_of_ids_eq (same : store.ids = other.ids) : ¬ store.Collide other :=
  fun collision => collision.1 (congrArg Digest.preimage same)

/-- The ids of a store that was empty are those of the valid submissions. -/
theorem mem_ids_run_empty_iff {calls : List Call} {clock : Clock} :
    id ∈ (empty.run calls clock).2.1.ids ↔ id ∈ validIds (calls.flatMap Call.submissions) := by
  have none : id ∉ empty.ids := List.not_mem_nil
  rw [run_eq_mergeEach, mem_ids_mergeEach_iff]
  exact or_iff_right none

/-- Two lists of ids are hashed from the same octets if they have the same members, and
only then.  So where these octets do not collide, a comparison with the digest of another
store says whether both stores hold the same ids.  For stores that were filled by calls
it says whether the valid submissions had the same ids, in whatever order, grouped in
whatever way and from wherever they came. -/
theorem converged_iff_same_ids :
    (∀ ids others : List RecordId,
      Digest.preimage ids = Digest.preimage others ↔ ∀ id, id ∈ ids ↔ id ∈ others)
      ∧ (∀ store other : Store, ¬ store.Collide other →
        (store.compareDigest other.digest = .converged ↔ ∀ id, id ∈ store.ids ↔ id ∈ other.ids))
      ∧ ∀ (calls others : List Call) (clock time : Clock),
        ¬ (empty.run calls clock).2.1.Collide (empty.run others time).2.1 →
          ((empty.run calls clock).2.1.compareDigest (empty.run others time).2.1.digest = .converged
            ↔ ∀ id, id ∈ validIds (calls.flatMap Call.submissions)
              ↔ id ∈ validIds (others.flatMap Call.submissions)) := by
  have decides (store other : Store) (sound : ¬ store.Collide other) :
      store.compareDigest other.digest = .converged ↔ ∀ id, id ∈ store.ids ↔ id ∈ other.ids :=
    compareDigest_eq_converged_iff.trans (Digest.ofIds_eq_iff sound)
  refine ⟨fun _ _ => Digest.preimage_eq_iff, decides, fun calls others clock time sound => ?_⟩
  simp only [decides _ _ sound, mem_ids_run_empty_iff]

/-- The twins converge however they are handed over, but not with an empty store. -/
theorem converged_iff_same_ids_twins :
    (empty.run together {}).2.1.compareDigest (empty.run apart {}).2.1.digest = .converged
      ∧ (empty.run together {}).2.1.compareDigest (empty.run [] {}).2.1.digest ≠ .converged := by
  obtain ⟨_, _, decides⟩ := converged_iff_same_ids
  constructor
  · refine (decides together apart {} {} (not_collide_of_ids_eq (by decide +kernel))).2 fun id => ?_
    have same : (twin 2).id = (twin 1).id := rfl
    simp [validIds, together, apart, Call.submissions, Submission.id, Submission.isValid,
      Envelope.isValid, same]
  · have sound : ¬ (empty.run together {}).2.1.Collide (empty.run [] {}).2.1 := by
      rintro ⟨_, same⟩
      revert same
      decide +kernel
    intro converged
    have none := (decides together [] {} {} sound).1 converged (twin 1).id
    simp [validIds, together, Call.submissions, Submission.id, Submission.isValid,
      Envelope.isValid] at none

end Store

end SignedFacts
