import SignedFacts.Proofs.Json.Reserved
import SignedFacts.Proofs.Octets.Order
import SignedFacts.Proofs.Value.OfJson

/-!
# Values behind reserved keys

Sorting may bring a reserved key to the front of a mapping.  In a value that has
been read it never stands there alone (`frontPlain_of_ofJson`), so it spoils the
text of the value.  A mapping begins with a reserved key if its least key is one
(`everywhere_frontPlain_iff`).  A value that is made of a tree without reserved
keys has none (`everywhere_keysPlain_of_ofJson`).
-/

namespace SignedFacts.Value

section Reading

variable {keep : Sorted.Occurrence} {limit depth : Nat} {json : Json}

theorem object_of_ofJson {entries : List (String × Value)}
    (converted : ofJson keep limit depth json = .ok (.mapping entries)) :
    ∃ members, json = .object members := by
  cases json with
  | object members => exact ⟨members, rfl⟩
  | array items =>
      obtain ⟨_, _, same, _⟩ := ofJson_array_eq_ok_iff.1 converted
      cases same
  | number n =>
      obtain ⟨_, _, same, _⟩ := ofJson_number_eq_ok_iff.1 converted
      cases same
  | _ =>
      unfold ofJson at converted
      split at converted <;> cases converted

variable {value : Value}

/-- The key in front of the object is also in the mapping.  So a reserved key is
not the only one there. -/
theorem frontPlain_of_ofJson (converted : ofJson .last limit depth json = .ok value)
    (plain : json.FrontPlain) (alone : value.toJson.ReservedAlone) : value.toJson.FrontPlain := by
  cases value with
  | mapping entries =>
      obtain ⟨members, rfl⟩ := object_of_ofJson converted
      obtain ⟨_, _, same, results⟩ := ofJson_object_eq_ok_iff.1 converted
      cases same
      cases entries with
      | nil => rfl
      | cons entry rest =>
          cases reserved : Json.isReserved entry.1 with
          | false => exact reserved
          | true =>
              have single : (membersToJson (entry :: rest)).length = 1 := alone reserved
              obtain rfl : rest = [] := by simpa [membersToJson_eq_map] using single
              cases members with
              | nil => cases results
              | cons member others =>
                  have known : member.1
                      ∈ (Sorted.collect .last ((member :: others).map fun member =>
                        (member.1, ofJson .last limit (depth + 1) member.2))).map (·.1) :=
                    Sorted.mem_keys_collect.2 (by simp)
                  rw [results] at known
                  have same : member.1 = entry.1 := List.mem_singleton.1 known
                  have plain : Json.isReserved member.1 = false := plain
                  rw [same, reserved] at plain
                  cases plain
  | _ => trivial

/-- The same of everything in a value. -/
theorem everywhere_frontPlain_of_ofJson (converted : ofJson .last limit depth json = .ok value)
    (plain : json.Everywhere (fun _ node => node.FrontPlain) depth)
    (alone : value.toJson.Everywhere (fun _ node => node.ReservedAlone) depth) :
    value.toJson.Everywhere (fun _ node => node.FrontPlain) depth := by
  rw [everywhere_toJson] at alone ⊢
  intro node member
  obtain ⟨source, stands, read⟩ := source_of_ofJson converted node member
  exact frontPlain_of_ofJson read (plain _ stands) (alone node member)

/-- The keys of a mapping are keys of the object. -/
theorem keysPlain_of_ofJson (converted : ofJson keep limit depth json = .ok value)
    (plain : json.KeysPlain) : value.toJson.KeysPlain := by
  cases value with
  | mapping entries =>
      obtain ⟨members, rfl⟩ := object_of_ofJson converted
      obtain ⟨_, _, same, results⟩ := ofJson_object_eq_ok_iff.1 converted
      cases same
      rw [toJson, Json.KeysPlain, membersToJson_eq_map, List.forall_mem_map]
      intro entry member
      have known : entry.1 ∈ (Sorted.collect keep (members.map fun member =>
          (member.1, ofJson keep limit (depth + 1) member.2))).map (·.1) := by
        rw [results, List.map_map]
        exact List.mem_map_of_mem member
      rw [Sorted.mem_keys_collect, List.map_map] at known
      obtain ⟨source, given, same⟩ := List.mem_map.1 known
      exact same ▸ plain source given
  | _ => trivial

theorem everywhere_keysPlain_of_ofJson (converted : ofJson keep limit depth json = .ok value)
    (plain : json.Everywhere (fun _ node => node.KeysPlain) depth) :
    value.toJson.Everywhere (fun _ node => node.KeysPlain) depth := by
  refine (everywhere_toJson value).2 fun node member => ?_
  obtain ⟨source, stands, read⟩ := source_of_ofJson converted node member
  exact keysPlain_of_ofJson read (plain _ stands)

end Reading

/-! ## The least key of a mapping -/

/-- A value is a mapping whose least key, octet by octet, is reserved. -/
def LeadsReserved : Value → Prop
  | .mapping members => ∃ member ∈ members, Json.isReserved member.1 = true
      ∧ ∀ other ∈ members, Utf8.encode member.1 ≤ Utf8.encode other.1
  | _ => False

theorem leadsReserved_iff {members : List (String × Value)} (ascending : Sorted.Ascending members) :
    LeadsReserved (.mapping members) ↔ Json.startsReserved (membersToJson members) = true := by
  cases members with
  | nil => simp [LeadsReserved, Json.startsReserved, membersToJson]
  | cons first rest =>
      have before := (List.pairwise_cons.1 ascending).1
      constructor
      · rintro ⟨member, among, reserved, least⟩
        rcases List.mem_cons.1 among with rfl | later
        · exact reserved
        · exact absurd (Utf8.encode_lt (before member later)) (least first (.head _))
      · intro reserved
        refine ⟨first, .head _, reserved, List.forall_mem_cons.2 ⟨List.le_refl _, ?_⟩⟩
        exact fun other later => List.le_of_lt (Utf8.encode_lt (before other later))

/-- In the tree of a value in order, a reserved key stands in front where it is
the least. -/
theorem everywhere_frontPlain_iff {value : Value} {level : Nat}
    (ordered : value.isOrdered = true) :
    value.toJson.Everywhere (fun _ node => node.FrontPlain) level
      ↔ ∀ node ∈ value.nodes level, ¬ LeadsReserved node.2 := by
  rw [everywhere_toJson]
  refine forall₂_congr fun node member => ?_
  have inOrder := isOrdered_of_mem_nodes ordered node member
  cases shape : node.2 with
  | mapping members =>
      rw [shape] at inOrder
      rw [leadsReserved_iff (ordered_mapping_iff.1 inOrder).1, Bool.not_eq_true]
      rfl
  | _ => exact iff_of_true trivial not_false

end SignedFacts.Value
