/-!
# Sorted lists of entries

A list of keys with values in strictly ascending order of the keys.  Insertion
keeps the order, and replaces the value of a key that is there.  `collect`
builds such a list from entries in any order, and of entries with one key it
keeps the first or the last.

`find?_insert` and `ascending_insert` say what insertion does to look-up and to
the order.
-/

namespace SignedFacts.Sorted

variable {κ α β : Type} [Ord κ]

/-! ## Order -/

/-- The keys ascend strictly. -/
def Ascending (entries : List (κ × α)) : Prop :=
  entries.Pairwise fun x y => compare x.1 y.1 = .lt

instance (entries : List (κ × α)) : Decidable (Ascending entries) :=
  inferInstanceAs (Decidable (entries.Pairwise _))

/-! ## Operations -/

/-- Puts a value under a key, in place of the value that is there. -/
def insert (key : κ) (value : α) : List (κ × α) → List (κ × α)
  | [] => [(key, value)]
  | (k, v) :: rest =>
      match compare key k with
      | .lt => (key, value) :: (k, v) :: rest
      | .eq => (key, value) :: rest
      | .gt => (k, v) :: insert key value rest

/-- The value under a key. -/
def find? (key : κ) : List (κ × α) → Option α
  | [] => none
  | (k, v) :: rest =>
      match compare key k with
      | .lt => none
      | .eq => some v
      | .gt => find? key rest

/-- Which of several entries with one key counts. -/
inductive Occurrence where
  /-- The first. -/
  | first
  /-- The last. -/
  | last
  deriving DecidableEq, Repr

/-- Entries in order of their keys, of those with one key the one that
counts. -/
def collect (keep : Occurrence) (entries : List (κ × α)) : List (κ × α) :=
  match keep with
  | .last => entries.foldl (fun sorted (key, value) => insert key value sorted) []
  | .first => entries.foldr (fun (key, value) sorted => insert key value sorted) []

/-! ## Laws -/

theorem mem_insert {key : κ} {value : α} {entries : List (κ × α)} {entry : κ × α}
    (member : entry ∈ insert key value entries) :
    entry = (key, value) ∨ entry ∈ entries := by
  induction entries with
  | nil => simpa [insert] using member
  | cons head rest induction =>
      obtain ⟨k, v⟩ := head
      simp only [insert] at member
      split at member
      · simpa using member
      · rcases List.mem_cons.1 member with same | member
        · exact Or.inl same
        · exact Or.inr (.tail _ member)
      · rcases List.mem_cons.1 member with same | member
        · exact Or.inr (same ▸ .head _)
        · exact (induction member).imp_right (.tail _)

/-- Collected entries are among those given. -/
theorem mem_collect {keep : Occurrence} {entries : List (κ × α)}
    {entry : κ × α} (member : entry ∈ collect keep entries) : entry ∈ entries := by
  cases keep with
  | last =>
      suffices general : ∀ sorted : List (κ × α),
          entry ∈ entries.foldl
            (fun sorted (key, value) => insert key value sorted) sorted →
            entry ∈ sorted ∨ entry ∈ entries from by
        simpa using general [] member
      clear member
      induction entries with
      | nil => exact fun _ member => Or.inl member
      | cons head rest induction =>
          intro sorted member
          rcases induction _ member with inserted | later
          · rcases mem_insert inserted with same | earlier
            · exact Or.inr (same ▸ .head _)
            · exact Or.inl earlier
          · exact Or.inr (.tail _ later)
  | first =>
      induction entries with
      | nil => exact member
      | cons head rest induction =>
          rcases mem_insert member with same | later
          · exact same ▸ .head _
          · exact .tail _ (induction later)

variable [Std.TransOrd κ] [Std.LawfulEqOrd κ]

theorem ascending_insert {key : κ} {value : α} {entries : List (κ × α)}
    (ascending : Ascending entries) : Ascending (insert key value entries) := by
  induction entries with
  | nil => simp [insert, Ascending]
  | cons head rest induction =>
      obtain ⟨k, v⟩ := head
      obtain ⟨before, tail⟩ := List.pairwise_cons.1 ascending
      simp only [insert]
      split
      next less =>
        refine List.pairwise_cons.2 ⟨?_, ascending⟩
        intro entry member
        rcases List.mem_cons.1 member with rfl | member
        · exact less
        · exact Std.TransCmp.lt_trans less (before entry member)
      next same =>
        obtain rfl := Std.LawfulEqOrd.eq_of_compare same
        exact List.pairwise_cons.2 ⟨before, tail⟩
      next greater =>
        refine List.pairwise_cons.2 ⟨?_, induction tail⟩
        intro entry member
        rcases mem_insert member with rfl | member
        · exact Std.OrientedCmp.lt_of_gt greater
        · exact before entry member

theorem ascending_collect (keep : Occurrence) (entries : List (κ × α)) :
    Ascending (collect keep entries) := by
  cases keep with
  | last =>
      suffices general : ∀ sorted : List (κ × α), Ascending sorted →
          Ascending (entries.foldl (fun sorted (key, value) => insert key value sorted) sorted) from
        general [] List.Pairwise.nil
      induction entries with
      | nil => exact fun _ ascending => ascending
      | cons head rest induction =>
          exact fun _ ascending => induction _ (ascending_insert ascending)
  | first =>
      induction entries with
      | nil => exact List.Pairwise.nil
      | cons head rest induction => exact ascending_insert induction

theorem find?_insert (key other : κ) (value : α) (entries : List (κ × α)) :
    find? other (insert key value entries)
      = if compare other key = .eq then some value else find? other entries := by
  induction entries with
  | nil =>
      simp only [insert, find?]
      cases compare other key <;> rfl
  | cons head rest induction =>
      obtain ⟨k, v⟩ := head
      simp only [insert]
      split
      next less =>
        simp only [find?]
        cases first : compare other key with
        | eq => rfl
        | gt => rfl
        | lt => simp [Std.TransCmp.lt_trans first less]
      next same =>
        obtain rfl := Std.LawfulEqOrd.eq_of_compare same
        simp only [find?]
        cases compare other key <;> rfl
      next greater =>
        simp only [find?, induction]
        cases first : compare other key with
        | eq =>
            obtain rfl := Std.LawfulEqOrd.eq_of_compare first
            simp [greater]
        | lt => simp
        | gt => simp

/-- Look-up finds exactly the entries of the list. -/
theorem find?_eq_some_iff {key : κ} {value : α} {entries : List (κ × α)}
    (ascending : Ascending entries) :
    find? key entries = some value ↔ (key, value) ∈ entries := by
  induction entries with
  | nil => simp [find?]
  | cons head rest induction =>
      obtain ⟨k, v⟩ := head
      obtain ⟨before, tail⟩ := List.pairwise_cons.1 ascending
      simp only [find?, List.mem_cons, Prod.mk.injEq]
      split
      next less =>
        constructor
        · simp
        · rintro (⟨rfl, rfl⟩ | member)
          · simp [Std.ReflCmp.compare_self] at less
          · have := Std.TransCmp.lt_trans less (before _ member)
            simp [Std.ReflCmp.compare_self] at this
      next same =>
        obtain rfl := Std.LawfulEqOrd.eq_of_compare same
        constructor
        · simp only [Option.some.injEq]
          rintro rfl
          exact Or.inl ⟨trivial, rfl⟩
        · rintro (⟨_, rfl⟩ | member)
          · rfl
          · have := before _ member
            simp [Std.ReflCmp.compare_self] at this
      next greater =>
        rw [induction tail]
        constructor
        · exact Or.inr
        · rintro (⟨rfl, rfl⟩ | member)
          · simp [Std.ReflCmp.compare_self] at greater
          · exact member

end SignedFacts.Sorted
