import SignedFacts.Table.Sorted

/-!
# Tables

A finite map that is listed in order of its keys.  Two tables with the same
look-ups are equal, since the order leaves one list for each map.
-/

namespace SignedFacts

/-- A finite map, held as entries in ascending order of their keys. -/
structure Table (κ α : Type) [Ord κ] where
  /-- The entries. -/
  entries : List (κ × α)
  /-- The keys ascend strictly. -/
  ascending : Sorted.Ascending entries

namespace Table

variable {κ α : Type} [Ord κ]

/-- Two tables with the same entries are equal. -/
@[ext] theorem ext {s t : Table κ α} (entries : s.entries = t.entries) : s = t := by
  cases s
  cases t
  cases entries
  rfl

/-- The table without entries. -/
def empty : Table κ α := ⟨[], List.Pairwise.nil⟩

instance : Inhabited (Table κ α) := ⟨empty⟩

/-- The value under a key. -/
def find? (key : κ) (table : Table κ α) : Option α := Sorted.find? key table.entries

/-- Whether a key has a value. -/
def contains (key : κ) (table : Table κ α) : Bool := (table.find? key).isSome

/-- The keys, ascending. -/
def keys (table : Table κ α) : List κ := table.entries.map (·.1)

/-- The values, in order of their keys. -/
def values (table : Table κ α) : List α := table.entries.map (·.2)

/-- The number of entries. -/
def size (table : Table κ α) : Nat := table.entries.length

@[simp] theorem find?_empty (key : κ) : (empty : Table κ α).find? key = none := rfl

variable [Std.TransOrd κ] [Std.LawfulEqOrd κ]

/-- Puts a value under a key, in place of the value that is there. -/
def insert (key : κ) (value : α) (table : Table κ α) : Table κ α :=
  ⟨Sorted.insert key value table.entries, Sorted.ascending_insert table.ascending⟩

/-- The table without a key. -/
def erase (key : κ) (table : Table κ α) : Table κ α :=
  ⟨table.entries.filter fun entry => compare key entry.1 ≠ .eq, table.ascending.filter _⟩

/-- Changes the value under a key, where `fresh` stands for a value that is not
there. -/
def update (key : κ) (fresh : α) (change : α → α) (table : Table κ α) : Table κ α :=
  table.insert key (change ((table.find? key).getD fresh))

/-- The table of entries, of those with one key the last. -/
def ofList (entries : List (κ × α)) : Table κ α :=
  ⟨Sorted.collect .last entries, Sorted.ascending_collect .last entries⟩

theorem find?_insert (key other : κ) (value : α) (table : Table κ α) :
    (table.insert key value).find? other
      = if compare other key = .eq then some value else table.find? other :=
  Sorted.find?_insert key other value table.entries

theorem find?_eq_some_iff {key : κ} {value : α} {table : Table κ α} :
    table.find? key = some value ↔ (key, value) ∈ table.entries :=
  Sorted.find?_eq_some_iff table.ascending

theorem find?_erase (key other : κ) (table : Table κ α) :
    (table.erase key).find? other
      = if compare other key = .eq then none else table.find? other := by
  ext value
  rw [find?_eq_some_iff, erase, List.mem_filter, ← find?_eq_some_iff, decide_eq_true_iff,
    Ne, Std.OrientedCmp.eq_comm]
  split
  next same => simp [same]
  next other => simp [other]

/-- There is nothing to erase under a key without a value. -/
theorem erase_of_find?_eq_none {key : κ} {table : Table κ α} (absent : table.find? key = none) :
    table.erase key = table := by
  apply ext
  rw [erase, List.filter_eq_self]
  rintro ⟨other, value⟩ member
  rw [decide_eq_true_iff]
  intro same
  obtain rfl := Std.LawfulEqOrd.eq_of_compare same
  simp [find?_eq_some_iff.2 member] at absent

end Table

end SignedFacts
