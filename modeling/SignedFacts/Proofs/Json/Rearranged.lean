import SignedFacts.Proofs.Json.Tree

/-!
# Trees that differ in the order of members

Two trees are rearrangements of each other if they are the same up to the order
of the members of their objects, at every level.  What the limits on trees ask
for does not look at this order: a property that two such objects share holds
everywhere in both trees or in none (`Rearranged.everywhere_iff`).
-/

namespace SignedFacts.Json

mutual

/-- The same tree up to the order of the members of its objects. -/
inductive Rearranged : Json → Json → Prop where
  | null : Rearranged .null .null
  | bool (value : Bool) : Rearranged (.bool value) (.bool value)
  | number (n : Numeral) : Rearranged (.number n) (.number n)
  | string (text : String) : Rearranged (.string text) (.string text)
  | array {items others : List Json} :
      RearrangedItems items others → Rearranged (.array items) (.array others)
  | object {members inPlace others : List (String × Json)} :
      RearrangedMembers members inPlace → inPlace.Perm others →
      Rearranged (.object members) (.object others)

/-- Items are the same one by one, up to the order of members inside. -/
inductive RearrangedItems : List Json → List Json → Prop where
  | nil : RearrangedItems [] []
  | cons {item other : Json} {items others : List Json} :
      Rearranged item other → RearrangedItems items others →
      RearrangedItems (item :: items) (other :: others)

/-- Members have the same keys one by one, and the same values up to the order of
members inside. -/
inductive RearrangedMembers : List (String × Json) → List (String × Json) → Prop where
  | nil : RearrangedMembers [] []
  | cons {key : String} {json other : Json} {members others : List (String × Json)} :
      Rearranged json other → RearrangedMembers members others →
      RearrangedMembers ((key, json) :: members) ((key, other) :: others)

end

/-! ## Items and members -/

section Parts

variable {items others : List Json} {members inPlace : List (String × Json)}

theorem RearrangedMembers.keys (same : RearrangedMembers members inPlace) :
    members.map (·.1) = inPlace.map (·.1) := by
  induction members generalizing inPlace with
  | nil => cases same; rfl
  | cons member rest induction =>
      cases same with
      | cons _ later => rw [List.map_cons, List.map_cons, induction later]

/-- Two rearranged objects have the same keys in another order. -/
theorem RearrangedMembers.keys_perm {others : List (String × Json)}
    (same : RearrangedMembers members inPlace) (perm : inPlace.Perm others) :
    (members.map (·.1)).Perm (others.map (·.1)) :=
  same.keys ▸ perm.map _

theorem RearrangedItems.map_eq {α : Type} {f g : Json → α}
    (same : RearrangedItems items others)
    (each : ∀ item ∈ items, ∀ other, Rearranged item other → f item = g other) :
    items.map f = others.map g := by
  induction items generalizing others with
  | nil => cases same; rfl
  | cons item rest induction =>
      obtain ⟨first, later⟩ := List.forall_mem_cons.1 each
      cases same with
      | cons here behind =>
          rw [List.map_cons, List.map_cons, first _ here, induction behind later]

theorem RearrangedMembers.map_eq {α : Type} {f g : Json → α}
    (same : RearrangedMembers members inPlace)
    (each : ∀ member ∈ members, ∀ other, Rearranged member.2 other → f member.2 = g other) :
    members.map (fun member => (member.1, f member.2))
      = inPlace.map fun member => (member.1, g member.2) := by
  induction members generalizing inPlace with
  | nil => cases same; rfl
  | cons member rest induction =>
      obtain ⟨first, later⟩ := List.forall_mem_cons.1 each
      cases same with
      | cons here behind =>
          rw [List.map_cons, List.map_cons, first _ here, induction behind later]

theorem RearrangedItems.forall_iff {p q : Json → Prop} (same : RearrangedItems items others)
    (each : ∀ item ∈ items, ∀ other, Rearranged item other → (p item ↔ q other)) :
    (∀ item ∈ items, p item) ↔ ∀ other ∈ others, q other := by
  have results := same.map_eq fun item member other here => propext (each item member other here)
  simpa only [List.forall_mem_map, eq_iff_iff] using
    congrArg (fun facts : List Prop => ∀ fact ∈ facts, fact) results

theorem RearrangedMembers.forall_iff {p q : Json → Prop}
    (same : RearrangedMembers members inPlace)
    (each : ∀ member ∈ members, ∀ other, Rearranged member.2 other → (p member.2 ↔ q other)) :
    (∀ member ∈ members, p member.2) ↔ ∀ other ∈ inPlace, q other.2 := by
  have results :=
    same.map_eq fun member among other here => propext (each member among other here)
  simpa only [List.forall_mem_map, eq_iff_iff] using
    congrArg (fun facts : List (String × Prop) => ∀ fact ∈ facts, fact.2) results

theorem RearrangedItems.of_forall (each : ∀ item ∈ items, Rearranged item item) :
    RearrangedItems items items := by
  induction items with
  | nil => exact .nil
  | cons item rest induction =>
      obtain ⟨first, later⟩ := List.forall_mem_cons.1 each
      exact .cons first (induction later)

theorem RearrangedMembers.of_forall (each : ∀ member ∈ members, Rearranged member.2 member.2) :
    RearrangedMembers members members := by
  induction members with
  | nil => exact .nil
  | cons member rest induction =>
      obtain ⟨first, later⟩ := List.forall_mem_cons.1 each
      exact .cons first (induction later)

end Parts

/-! ## Whole trees -/

theorem Rearranged.refl (json : Json) : Rearranged json json := by
  induction json using induct with
  | array items induction => exact .array (.of_forall induction)
  | object members induction => exact .object (.of_forall induction) (.refl _)
  | _ => constructor

/-- The members of an object may be put in another order. -/
theorem Rearranged.of_perm {members others : List (String × Json)} (perm : members.Perm others) :
    Rearranged (.object members) (.object others) :=
  .object (.of_forall fun member _ => .refl member.2) perm

/-- What holds of a tree if it holds of a rearrangement holds everywhere in both
or in none. -/
theorem Rearranged.everywhere_iff {property : Nat → Json → Prop} {level : Nat}
    {json other : Json} (same : Rearranged json other)
    (shared : ∀ level json other, Rearranged json other →
      (property level json ↔ property level other)) :
    json.Everywhere property level ↔ other.Everywhere property level := by
  induction json using induct generalizing other level with
  | array items induction =>
      have root := shared level _ _ same
      cases same with
      | array inside =>
          rw [everywhere_array, everywhere_array]
          exact and_congr root (inside.forall_iff fun item member other here =>
            induction item member here)
  | object members induction =>
      have root := shared level _ _ same
      cases same with
      | object inPlace perm =>
          have each := inPlace.forall_iff fun member among other here =>
            @induction member among (level + 1) other here
          rw [everywhere_object, everywhere_object, each]
          exact and_congr root (by simp only [perm.mem_iff])
  | _ => cases same; rfl

theorem Rearranged.uniqueKeys_iff {json other : Json} (same : Rearranged json other) :
    json.UniqueKeys ↔ other.UniqueKeys := by
  refine same.everywhere_iff fun _ json other same => ?_
  cases same with
  | object inPlace perm => exact (inPlace.keys_perm perm).nodup_iff
  | _ => exact Iff.rfl

theorem Rearranged.avoidsReserved_iff {json other : Json} (same : Rearranged json other) :
    json.AvoidsReserved ↔ other.AvoidsReserved := by
  refine same.everywhere_iff fun _ json other same => ?_
  cases same with
  | object inPlace perm =>
      have plain (members : List (String × Json)) :
          KeysPlain (.object members) ↔ ∀ key ∈ members.map (·.1), isReserved key = false := by
        rw [KeysPlain, List.forall_mem_map]
      simp only [plain, (inPlace.keys_perm perm).mem_iff]
  | _ => exact Iff.rfl

theorem Rearranged.nestsWithin_iff {limit : Nat} {json other : Json}
    (same : Rearranged json other) : json.NestsWithin limit ↔ other.NestsWithin limit := by
  refine same.everywhere_iff fun _ json other same => ?_
  cases same <;> exact Iff.rfl

end SignedFacts.Json
