import Mathlib.Data.List.Induction
import SignedFacts.Table.Sorted

/-!
# Collecting entries

Collected entries have the keys of the entries given.  If no key is repeated
they are those entries in another order, and entries in order stay as they are.
Then the entries alone decide what is collected, and neither their order nor
which occurrence of a key counts (`collect_eq_of_perm`).
-/

namespace SignedFacts.Sorted

variable {κ α : Type} [Ord κ] {key : κ} {value : α} {entries : List (κ × α)}

theorem ascending_iff_keys :
    Ascending entries ↔ (entries.map (·.1)).Pairwise fun x y => compare x y = .lt := by
  rw [List.pairwise_map, Ascending]

theorem insert_of_before (before : ∀ entry ∈ entries, compare key entry.1 = .gt) :
    insert key value entries = entries ++ [(key, value)] := by
  induction entries with
  | nil => rfl
  | cons head rest induction =>
      obtain ⟨first, others⟩ := List.forall_mem_cons.1 before
      simp [insert, first, induction others]

theorem mem_keys_insert [Std.LawfulEqOrd κ] {other : κ} :
    other ∈ (insert key value entries).map (·.1)
      ↔ other = key ∨ other ∈ entries.map (·.1) := by
  induction entries with
  | nil => simp [insert]
  | cons head rest induction =>
      obtain ⟨k, v⟩ := head
      simp only [insert]
      split
      next => simp
      next same =>
        obtain rfl := Std.LawfulEqOrd.eq_of_compare same
        simp
      next =>
        rw [List.map_cons, List.mem_cons, induction, List.map_cons, List.mem_cons]
        exact or_left_comm

theorem insert_perm [Std.LawfulEqOrd κ] (fresh : key ∉ entries.map (·.1)) :
    (insert key value entries).Perm ((key, value) :: entries) := by
  induction entries with
  | nil => exact .refl _
  | cons head rest induction =>
      obtain ⟨k, v⟩ := head
      rw [List.map_cons, List.mem_cons, not_or] at fresh
      simp only [insert]
      split
      next => exact .refl _
      next same => exact absurd (Std.LawfulEqOrd.eq_of_compare same) fresh.1
      next => exact ((induction fresh.2).cons _).trans (.swap _ _ _)

/-! ## Collecting -/

/-- One step of collecting, where a later entry takes the place of an earlier
one. -/
theorem collect_last_concat (entries : List (κ × α)) (entry : κ × α) :
    collect .last (entries ++ [entry]) = insert entry.1 entry.2 (collect .last entries) := by
  simp [collect]

theorem collect_first_cons (entry : κ × α) (entries : List (κ × α)) :
    collect .first (entry :: entries) = insert entry.1 entry.2 (collect .first entries) := rfl

theorem mem_keys_collect [Std.LawfulEqOrd κ] {keep : Occurrence} {other : κ} :
    other ∈ (collect keep entries).map (·.1) ↔ other ∈ entries.map (·.1) := by
  cases keep with
  | last =>
      induction entries using List.reverseRecOn with
      | nil => rfl
      | append_singleton entries entry induction =>
          rw [collect_last_concat, mem_keys_insert, induction]
          simp [or_comm]
  | first =>
      induction entries with
      | nil => rfl
      | cons entry entries induction =>
          rw [collect_first_cons, mem_keys_insert, induction, List.map_cons, List.mem_cons]

/-- Entries without a repeated key are collected in another order. -/
theorem collect_perm [Std.LawfulEqOrd κ] {keep : Occurrence}
    (distinct : (entries.map (·.1)).Nodup) : (collect keep entries).Perm entries := by
  cases keep with
  | last =>
      induction entries using List.reverseRecOn with
      | nil => exact .refl _
      | append_singleton entries entry induction =>
          rw [List.map_append, List.nodup_append] at distinct
          obtain ⟨earlier, _, apart⟩ := distinct
          have fresh : entry.1 ∉ (collect .last entries).map (·.1) := by
            rw [mem_keys_collect]
            exact fun known => apart _ known _ (by simp) rfl
          rw [collect_last_concat]
          exact (insert_perm fresh).trans
            (((induction earlier).cons _).trans (List.perm_append_singleton _ _).symm)
  | first =>
      induction entries with
      | nil => exact .refl _
      | cons entry entries induction =>
          obtain ⟨new, later⟩ := List.nodup_cons.1 distinct
          have fresh : entry.1 ∉ (collect .first entries).map (·.1) := by
            rwa [mem_keys_collect]
          rw [collect_first_cons]
          exact (insert_perm fresh).trans ((induction later).cons _)

/-- Keys in order are not repeated. -/
theorem nodup_of_ascending [Std.LawfulEqOrd κ] (ascending : Ascending entries) :
    (entries.map (·.1)).Nodup := by
  rw [List.Nodup, List.pairwise_map]
  refine ascending.imp fun less same => ?_
  simp [same, Std.ReflCmp.compare_self] at less

/-- Entries in order are determined by which they are. -/
theorem eq_of_perm_of_ascending [Std.OrientedOrd κ] {others : List (κ × α)}
    (ascending : Ascending entries) (ascendingToo : Ascending others)
    (perm : entries.Perm others) : entries = others := by
  refine List.Perm.eq_of_pairwise (fun x y _ _ less greater => ?_) ascending ascendingToo perm
  rw [Std.OrientedOrd.eq_swap, greater] at less
  cases less

/-- Keys in order are determined by which they are. -/
theorem keys_eq_of_mem_iff [Std.OrientedOrd κ] [Std.LawfulEqOrd κ] {β : Type}
    {others : List (κ × β)} (ascending : Ascending entries) (ascendingToo : Ascending others)
    (same : ∀ key, key ∈ entries.map (·.1) ↔ key ∈ others.map (·.1)) :
    entries.map (·.1) = others.map (·.1) := by
  have perm : (entries.map (·.1)).Perm (others.map (·.1)) :=
    (List.perm_ext_iff_of_nodup (nodup_of_ascending ascending)
      (nodup_of_ascending ascendingToo)).2 same
  refine List.Perm.eq_of_pairwise (fun x y _ _ less greater => ?_)
    (ascending_iff_keys.1 ascending) (ascending_iff_keys.1 ascendingToo) perm
  rw [Std.OrientedOrd.eq_swap, greater] at less
  cases less

/-- Without a repeated key it does not matter in which order the entries are
given, nor which occurrence of a key counts. -/
theorem collect_eq_of_perm [Std.TransOrd κ] [Std.LawfulEqOrd κ] {keep other : Occurrence}
    {others : List (κ × α)} (distinct : (entries.map (·.1)).Nodup) (perm : entries.Perm others) :
    collect keep entries = collect other others := by
  have distinctToo : (others.map (·.1)).Nodup := (perm.map _).nodup distinct
  refine eq_of_perm_of_ascending (ascending_collect _ _) (ascending_collect _ _) ?_
  exact (collect_perm distinct).trans (perm.trans (collect_perm distinctToo).symm)

/-- What stands under the keys may be changed before or after. -/
theorem collect_map [Std.TransOrd κ] [Std.LawfulEqOrd κ] {keep : Occurrence} {β : Type} (f : α → β)
    (distinct : (entries.map (·.1)).Nodup) :
    collect keep (entries.map fun entry => (entry.1, f entry.2))
      = (collect keep entries).map fun entry => (entry.1, f entry.2) := by
  have ascending : Ascending ((collect keep entries).map fun entry => (entry.1, f entry.2)) := by
    simpa [Ascending, List.pairwise_map] using ascending_collect keep entries
  refine eq_of_perm_of_ascending (ascending_collect _ _) ascending ?_
  refine (collect_perm ?_).trans ((collect_perm distinct).map _).symm
  rwa [List.map_map]

/-- Entries in order are collected as they are. -/
theorem collect_of_ascending [Std.OrientedOrd κ] (ascending : Ascending entries) :
    collect .last entries = entries := by
  induction entries using List.reverseRecOn with
  | nil => rfl
  | append_singleton entries entry induction =>
      rw [Ascending, List.pairwise_append] at ascending
      obtain ⟨earlier, _, before⟩ := ascending
      rw [collect_last_concat, induction earlier]
      refine insert_of_before fun other member => ?_
      rw [Std.OrientedOrd.eq_swap, before other member entry (by simp)]
      rfl

end SignedFacts.Sorted
