import SignedFacts.Proofs.Number.Value
import SignedFacts.Proofs.Value.Tree
import SignedFacts.Value.OfJson

/-!
# Values of trees

`ofJson` is taken apart once, for lists (`ofJson_array_eq_ok_iff`) and for
objects (`ofJson_object_eq_ok_iff`).  From there follow when a tree has a value
(`exists_ofJson_iff`), what the value is (`denotes_of_ofJson`), and that the
tree of a value has this value (`ofJson_toJson`).
-/

namespace SignedFacts.Value

/-! ## The parts of a tree -/

section Parts

variable {keep : Sorted.Occurrence} {limit depth : Nat}

theorem ofMembers_eq_map (members : List (String × Json)) :
    ofMembers keep limit depth members
      = members.map fun member => (member.1, ofJson keep limit depth member.2) := by
  induction members with
  | nil => rfl
  | cons member rest induction => simp [ofMembers, induction]

theorem ofItems_eq_ok_iff {items : List Json} {values : List Value} :
    ofItems keep limit depth items = .ok values
      ↔ items.map (ofJson keep limit depth) = values.map .ok := by
  induction items generalizing values with
  | nil => cases values <;> simp [ofItems]
  | cons item rest induction =>
      rw [ofItems]
      cases values with
      | nil => cases ofJson keep limit depth item <;> cases ofItems keep limit depth rest <;>
          simp [Except.map]
      | cons value values =>
          rw [List.map_cons, List.map_cons, List.cons.injEq, ← induction]
          cases ofJson keep limit depth item <;> cases ofItems keep limit depth rest <;>
            simp [Except.map]

theorem allMembers_eq_ok_iff {ε α : Type} {results : List (String × Except ε α)}
    {members : List (String × α)} :
    allMembers results = .ok members
      ↔ results = members.map fun member => (member.1, .ok member.2) := by
  refine ⟨allMembers_eq_ok, ?_⟩
  rintro rfl
  induction members with
  | nil => rfl
  | cons member rest induction => simp [allMembers, induction, Except.map]

theorem ofJson_eq_ok_le {json : Json} {value : Value}
    (converted : ofJson keep limit depth json = .ok value) : depth ≤ limit := by
  unfold ofJson at converted
  split at converted
  · cases converted
  · omega

theorem ofJson_array_eq_ok_iff {items : List Json} {value : Value} :
    ofJson keep limit depth (.array items) = .ok value
      ↔ depth ≤ limit ∧ ∃ values, value = .sequence values
        ∧ items.map (ofJson keep limit (depth + 1)) = values.map .ok := by
  simp only [← ofItems_eq_ok_iff]
  unfold ofJson
  split
  next deep => exact iff_of_false (by simp) fun both => absurd both.1 (by omega)
  next shallow =>
    cases converted : ofItems keep limit (depth + 1) items <;>
      simp [converted, Except.map, Nat.le_of_not_lt shallow, eq_comm]

theorem ofJson_object_eq_ok_iff {members : List (String × Json)} {value : Value} :
    ofJson keep limit depth (.object members) = .ok value
      ↔ depth ≤ limit ∧ ∃ entries, value = .mapping entries
        ∧ Sorted.collect keep
            (members.map fun member => (member.1, ofJson keep limit (depth + 1) member.2))
          = entries.map fun entry => (entry.1, .ok entry.2) := by
  simp only [← allMembers_eq_ok_iff, ← ofMembers_eq_map]
  unfold ofJson
  split
  next deep => exact iff_of_false (by simp) fun both => absurd both.1 (by omega)
  next shallow =>
    cases converted :
        allMembers (Sorted.collect keep (ofMembers keep limit (depth + 1) members)) <;>
      simp [converted, Except.map, Nat.le_of_not_lt shallow, eq_comm]

theorem ofJson_number_eq_ok_iff {n : Numeral} {value : Value} :
    ofJson keep limit depth (.number n) = .ok value
      ↔ depth ≤ limit ∧ ∃ x, value = .number x ∧ Decimal.ofNumeral n = .ok x := by
  unfold ofJson
  split
  next deep => exact iff_of_false (by simp) fun both => absurd both.1 (by omega)
  next shallow =>
    cases converted : Decimal.ofNumeral n <;> simp [converted, Nat.le_of_not_lt shallow, eq_comm]

theorem exists_values_iff {ε α β : Type} {f : α → Except ε β} {items : List α} :
    (∃ values : List β, items.map f = values.map .ok)
      ↔ ∀ item ∈ items, ∃ value, f item = .ok value := by
  induction items with
  | nil => exact iff_of_true ⟨[], rfl⟩ nofun
  | cons item rest induction =>
      rw [List.forall_mem_cons, ← induction]
      constructor
      · rintro ⟨values, same⟩
        cases values with
        | nil => cases same
        | cons value values =>
            obtain ⟨first, others⟩ := List.cons.inj same
            exact ⟨⟨value, first⟩, values, others⟩
      · rintro ⟨⟨value, first⟩, values, others⟩
        exact ⟨value :: values, by rw [List.map_cons, List.map_cons, first, others]⟩

theorem exists_entries_iff {ε α : Type} {results : List (String × Except ε α)} :
    (∃ entries : List (String × α), results = entries.map fun entry => (entry.1, .ok entry.2))
      ↔ ∀ result ∈ results, ∃ value, result.2 = .ok value := by
  induction results with
  | nil => exact iff_of_true ⟨[], rfl⟩ nofun
  | cons result rest induction =>
      rw [List.forall_mem_cons, ← induction]
      constructor
      · rintro ⟨entries, same⟩
        cases entries with
        | nil => cases same
        | cons entry entries =>
            rw [List.map_cons, List.cons.injEq] at same
            exact ⟨⟨entry.2, by rw [same.1]⟩, entries, same.2⟩
      · rintro ⟨⟨value, first⟩, entries, others⟩
        exact ⟨(result.1, value) :: entries, by rw [List.map_cons, ← others, ← first]⟩

/-- The results for members are collected in another order if no key is
repeated. -/
theorem collect_results_perm {ε α β : Type} (f : α → Except ε β) {members : List (String × α)}
    (distinct : (members.map (·.1)).Nodup) :
    (Sorted.collect .last (members.map fun member => (member.1, f member.2))).Perm
      (members.map fun member => (member.1, f member.2)) := by
  refine Sorted.collect_perm ?_
  rwa [List.map_map]

end Parts

/-! ## When a tree has a value -/

/-- A node stands no deeper than the limit, and is read if it is a number. -/
def Convertible (limit level : Nat) (node : Json) : Prop :=
  level ≤ limit ∧ ∀ n, node = .number n → ∃ x, Decimal.ofNumeral n = .ok x

section Exists

variable {limit depth : Nat}

theorem exists_ofJson_array_iff {items : List Json} :
    (∃ value, ofJson .last limit depth (.array items) = .ok value)
      ↔ depth ≤ limit
        ∧ ∀ item ∈ items, ∃ value, ofJson .last limit (depth + 1) item = .ok value := by
  rw [← exists_values_iff]
  simp only [ofJson_array_eq_ok_iff]
  constructor
  · rintro ⟨_, room, values, _, same⟩
    exact ⟨room, values, same⟩
  · rintro ⟨room, values, same⟩
    exact ⟨_, room, values, rfl, same⟩

theorem exists_ofJson_object_iff {members : List (String × Json)}
    (distinct : (members.map (·.1)).Nodup) :
    (∃ value, ofJson .last limit depth (.object members) = .ok value)
      ↔ depth ≤ limit
        ∧ ∀ member ∈ members, ∃ value, ofJson .last limit (depth + 1) member.2 = .ok value := by
  -- Collecting changes the order of the results only.
  have results := collect_results_perm (ofJson .last limit (depth + 1)) distinct
  have each : (∀ member ∈ members, ∃ value, ofJson .last limit (depth + 1) member.2 = .ok value)
      ↔ ∀ result ∈ Sorted.collect .last
        (members.map fun member => (member.1, ofJson .last limit (depth + 1) member.2)),
        ∃ value, result.2 = .ok value := by
    simp only [results.mem_iff, List.forall_mem_map]
  rw [each, ← exists_entries_iff]
  simp only [ofJson_object_eq_ok_iff]
  constructor
  · rintro ⟨_, room, entries, _, same⟩
    exact ⟨room, entries, same⟩
  · rintro ⟨room, entries, same⟩
    exact ⟨_, room, entries, rfl, same⟩

/-- A tree that repeats no key has a value exactly if every node has one. -/
theorem exists_ofJson_iff {json : Json}
    (distinct : json.Everywhere (fun _ node => node.KeysDistinct) depth) :
    (∃ value, ofJson .last limit depth json = .ok value)
      ↔ json.Everywhere (Convertible limit) depth := by
  induction json using Json.induct generalizing depth with
  | array items induction =>
      have inside := (Json.everywhere_array.1 distinct).2
      rw [exists_ofJson_array_iff, Json.everywhere_array]
      refine and_congr (by simp [Convertible]) ?_
      exact forall₂_congr fun item member => induction item member (inside item member)
  | object members induction =>
      obtain ⟨keys, inside⟩ := Json.everywhere_object.1 distinct
      rw [exists_ofJson_object_iff keys, Json.everywhere_object]
      refine and_congr (by simp [Convertible]) ?_
      exact forall₂_congr fun member among => induction member among (inside member among)
  | number n =>
      simp only [ofJson_number_eq_ok_iff, Json.Everywhere, Json.nodes, List.forall_mem_singleton,
        Convertible, Json.number.injEq, forall_eq']
      constructor
      · rintro ⟨_, room, x, _, read⟩
        exact ⟨room, x, read⟩
      · rintro ⟨room, x, read⟩
        exact ⟨_, room, x, rfl, read⟩
  | _ =>
      by_cases deep : limit < depth
      · simp [ofJson, Json.Everywhere, Json.nodes, Convertible, deep]
      · simp [ofJson, Json.Everywhere, Json.nodes, Convertible, deep, Nat.le_of_not_lt deep]

end Exists

/-! ## What the value is -/

mutual

/-- A tree spells a value.  Numbers are compared as rational numbers, and the
members of an object may stand in any order. -/
def Denotes : Json → Value → Prop
  | .null, value => value = .null
  | .bool truth, value => value = .bool truth
  | .number n, value => ∃ x, value = .number x ∧ x.value = n.value
  | .string text, value => value = .string text
  | .array items, value => ∃ values, value = .sequence values ∧ ItemsDenote items values
  | .object members, value => ∃ entries, value = .mapping entries
      ∧ (entries.map (·.1)).Perm (members.map (·.1)) ∧ MembersDenote members entries

/-- Trees spell values one by one. -/
def ItemsDenote : List Json → List Value → Prop
  | [], [] => True
  | item :: rest, value :: values => Denotes item value ∧ ItemsDenote rest values
  | _, _ => False

/-- The value of each member stands under its key. -/
def MembersDenote : List (String × Json) → List (String × Value) → Prop
  | [], _ => True
  | (key, json) :: rest, entries =>
      (∃ value, (key, value) ∈ entries ∧ Denotes json value) ∧ MembersDenote rest entries

end

theorem itemsDenote_of_forall {ε : Type} {f : Json → Except ε Value} {items : List Json}
    {values : List Value} (same : items.map f = values.map .ok)
    (each : ∀ item ∈ items, ∀ value, f item = .ok value → Denotes item value) :
    ItemsDenote items values := by
  induction items generalizing values with
  | nil =>
      cases values with
      | nil => exact trivial
      | cons => cases same
  | cons item rest induction =>
      cases values with
      | nil => cases same
      | cons value values =>
          obtain ⟨first, others⟩ := List.cons.inj same
          exact ⟨each item (.head _) value first,
            induction others fun item member => each item (.tail _ member)⟩

theorem membersDenote_iff {members : List (String × Json)} {entries : List (String × Value)} :
    MembersDenote members entries
      ↔ ∀ member ∈ members, ∃ value, (member.1, value) ∈ entries ∧ Denotes member.2 value := by
  induction members with
  | nil => simp [MembersDenote]
  | cons member rest induction => simp [MembersDenote, induction]

/-- A number is spelled with digits where they are due and is not too long for
its exponent to be counted. -/
def NumberSafe (node : Json) : Prop :=
  ∀ n, node = .number n → n.WellFormed ∧ n.chars.length ≤ Numeral.safeLength

/-- A tree spells its value. -/
theorem denotes_of_ofJson {limit depth : Nat} {json : Json} {value : Value}
    (distinct : json.Everywhere (fun _ node => node.KeysDistinct) depth)
    (safe : json.Everywhere (fun _ node => NumberSafe node) depth)
    (converted : ofJson .last limit depth json = .ok value) : Denotes json value := by
  induction json using Json.induct generalizing depth value with
  | number n =>
      obtain ⟨_, x, rfl, read⟩ := ofJson_number_eq_ok_iff.1 converted
      obtain ⟨formed, short⟩ := safe.root n rfl
      exact ⟨x, rfl, Decimal.value_of_ofNumeral formed short read⟩
  | array items induction =>
      obtain ⟨_, values, rfl, same⟩ := ofJson_array_eq_ok_iff.1 converted
      have distinct := (Json.everywhere_array.1 distinct).2
      have safe := (Json.everywhere_array.1 safe).2
      refine ⟨values, rfl, itemsDenote_of_forall same fun item member value read => ?_⟩
      exact induction item member (distinct item member) (safe item member) read
  | object members induction =>
      obtain ⟨_, entries, rfl, same⟩ := ofJson_object_eq_ok_iff.1 converted
      obtain ⟨keys, distinct⟩ := Json.everywhere_object.1 distinct
      have safe := (Json.everywhere_object.1 safe).2
      have results := collect_results_perm (ofJson .last limit (depth + 1)) keys
      rw [same] at results
      refine ⟨entries, rfl, by simpa [Function.comp_def] using results.map (·.1),
        membersDenote_iff.2 ?_⟩
      intro member among
      have found := results.symm.mem_iff.1 (List.mem_map_of_mem among)
      obtain ⟨entry, inside, same⟩ := List.mem_map.1 found
      obtain ⟨key, read⟩ := Prod.mk.inj same
      refine ⟨entry.2, key ▸ inside, ?_⟩
      exact induction member among (distinct member among) (safe member among) read.symm
  | _ =>
      unfold ofJson at converted
      split at converted
      · cases converted
      · cases converted
        rfl

/-! ## Where a value comes from -/

/-- Everything in the value of a tree is the value of something in the tree that
stands at the same level. -/
theorem source_of_ofJson {keep : Sorted.Occurrence} {limit depth : Nat} {json : Json}
    {value : Value} (converted : ofJson keep limit depth json = .ok value) :
    ∀ node ∈ value.nodes depth, ∃ source, (node.1, source) ∈ json.nodes depth
      ∧ ofJson keep limit node.1 source = .ok node.2 := by
  induction json using Json.induct generalizing depth value with
  | array items induction =>
      obtain ⟨_, values, rfl, same⟩ := ofJson_array_eq_ok_iff.1 converted
      refine List.forall_mem_cons.2 ⟨⟨_, .head _, converted⟩, fun node member => ?_⟩
      obtain ⟨value, among, inside⟩ := mem_itemNodes.1 member
      have result : Except.ok value ∈ items.map (ofJson keep limit (depth + 1)) :=
        same ▸ List.mem_map_of_mem among
      obtain ⟨item, given, read⟩ := List.mem_map.1 result
      obtain ⟨source, stands, gives⟩ := induction item given read node inside
      exact ⟨source, .tail _ (Json.mem_itemNodes.2 ⟨item, given, stands⟩), gives⟩
  | object members induction =>
      obtain ⟨_, entries, rfl, same⟩ := ofJson_object_eq_ok_iff.1 converted
      refine List.forall_mem_cons.2 ⟨⟨_, .head _, converted⟩, fun node member => ?_⟩
      obtain ⟨entry, among, inside⟩ := mem_memberNodes.1 member
      have result : (entry.1, Except.ok entry.2) ∈ Sorted.collect keep
          (members.map fun member => (member.1, ofJson keep limit (depth + 1) member.2)) :=
        same ▸ List.mem_map_of_mem (f := fun entry => (entry.1, Except.ok entry.2)) among
      obtain ⟨member, given, same⟩ := List.mem_map.1 (Sorted.mem_collect result)
      obtain ⟨source, stands, gives⟩ :=
        induction member given (Prod.mk.inj same).2 node inside
      exact ⟨source, .tail _ (Json.mem_memberNodes.2 ⟨member, given, stands⟩), gives⟩
  | number n =>
      obtain ⟨_, x, rfl, _⟩ := ofJson_number_eq_ok_iff.1 converted
      exact List.forall_mem_singleton.2 ⟨_, .head _, converted⟩
  | _ =>
      have given := converted
      unfold ofJson at given
      split at given
      · cases given
      · cases given
        exact List.forall_mem_singleton.2 ⟨_, .head _, converted⟩

/-- No node of the value of a tree stands deeper than the limit. -/
theorem level_le_of_ofJson {keep : Sorted.Occurrence} {limit depth : Nat} {json : Json}
    {value : Value} (converted : ofJson keep limit depth json = .ok value) :
    ∀ node ∈ value.nodes depth, node.1 ≤ limit := by
  intro node member
  obtain ⟨source, _, read⟩ := source_of_ofJson converted node member
  exact ofJson_eq_ok_le read

/-! ## The tree of a value -/

/-- The tree of a value has the value. -/
theorem ofJson_toJson {limit depth : Nat} {value : Value} (ordered : value.isOrdered = true)
    (within : ∀ node ∈ value.nodes depth, node.1 ≤ limit) :
    ofJson .last limit depth value.toJson = .ok value := by
  induction value using induct generalizing depth with
  | number x =>
      refine ofJson_number_eq_ok_iff.2 ⟨?_, x, rfl, x.ofNumeral_numeral⟩
      simpa [nodes] using within
  | sequence items induction =>
      obtain ⟨room, inside⟩ := List.forall_mem_cons.1 within
      rw [toJson, ofJson_array_eq_ok_iff, itemsToJson_eq_map, List.map_map]
      refine ⟨room, items, rfl, List.map_congr_left fun item member => ?_⟩
      exact induction item member (areOrdered_iff.1 ordered item member)
        fun node among => inside node (mem_itemNodes.2 ⟨item, member, among⟩)
  | mapping members induction =>
      obtain ⟨room, inside⟩ := List.forall_mem_cons.1 within
      rw [ordered_mapping_iff] at ordered
      have results : (membersToJson members).map (fun member =>
            (member.1, ofJson .last limit (depth + 1) member.2))
          = members.map fun member => (member.1, .ok member.2) := by
        rw [membersToJson_eq_map, List.map_map]
        refine List.map_congr_left fun member among => congrArg (Prod.mk member.1) ?_
        exact induction member among (ordered.2 member among)
          fun node deeper => inside node (mem_memberNodes.2 ⟨member, among, deeper⟩)
      rw [toJson, ofJson_object_eq_ok_iff, results]
      refine ⟨room, members, rfl, Sorted.collect_of_ascending ?_⟩
      simpa [Sorted.Ascending, List.pairwise_map] using ordered.1
  | _ =>
      have room : depth ≤ limit := by simpa [nodes] using within
      simp [toJson, ofJson, Nat.not_lt.2 room]

end SignedFacts.Value
