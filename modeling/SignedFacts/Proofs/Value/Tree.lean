import SignedFacts.Proofs.Json.Tree
import SignedFacts.Proofs.Table.Sorted
import SignedFacts.Proofs.Value.Canonical

/-!
# Properties of values

As for trees, `nodes` lists everything in a value with its level.  What holds
everywhere in the tree of a value is what holds of the trees of all nodes
(`Value.everywhere_toJson`).
-/

namespace SignedFacts.Value

/-- Induction over values, where a sequence or a mapping may use what it
contains. -/
@[elab_as_elim] theorem induct {motive : Value → Prop} (null : motive .null)
    (bool : ∀ value, motive (.bool value)) (number : ∀ value, motive (.number value))
    (string : ∀ text, motive (.string text))
    (sequence : ∀ items, (∀ item ∈ items, motive item) → motive (.sequence items))
    (mapping : ∀ members : List (String × Value),
      (∀ member ∈ members, motive member.2) → motive (.mapping members)) :
    ∀ value : Value, motive value :=
  @Value.rec motive (fun items => ∀ item ∈ items, motive item)
    (fun members => ∀ member ∈ members, motive member.2) (fun member => motive member.2)
    null bool number string sequence mapping
    nofun (fun _ _ first others => List.forall_mem_cons.2 ⟨first, others⟩)
    nofun (fun _ _ first others => List.forall_mem_cons.2 ⟨first, others⟩)
    fun _ _ value => value

/-! ## Everything in a value -/

mutual

/-- Everything in a value with its level, where the value itself stands at
`level`. -/
def nodes (level : Nat) : Value → List (Nat × Value)
  | .sequence items => (level, .sequence items) :: itemNodes (level + 1) items
  | .mapping members => (level, .mapping members) :: memberNodes (level + 1) members
  | value => [(level, value)]

/-- Everything in some values with its level. -/
def itemNodes (level : Nat) : List Value → List (Nat × Value)
  | [] => []
  | item :: rest => nodes level item ++ itemNodes level rest

/-- Everything in the values of some members with its level. -/
def memberNodes (level : Nat) : List (String × Value) → List (Nat × Value)
  | [] => []
  | (_, value) :: rest => nodes level value ++ memberNodes level rest

end

theorem mem_itemNodes {level : Nat} {node : Nat × Value} {items : List Value} :
    node ∈ itemNodes level items ↔ ∃ item ∈ items, node ∈ item.nodes level := by
  induction items with
  | nil => simp [itemNodes]
  | cons item rest induction => simp [itemNodes, induction]

theorem mem_memberNodes {level : Nat} {node : Nat × Value} {members : List (String × Value)} :
    node ∈ memberNodes level members ↔ ∃ member ∈ members, node ∈ member.2.nodes level := by
  induction members with
  | nil => simp [memberNodes]
  | cons member rest induction => simp [memberNodes, induction]

/-- A property holds everywhere in the tree of a value if it holds of the trees
of everything in the value. -/
theorem everywhere_toJson {property : Nat → Json → Prop} {level : Nat} (value : Value) :
    value.toJson.Everywhere property level
      ↔ ∀ node ∈ value.nodes level, property node.1 node.2.toJson := by
  induction value using induct generalizing level with
  | sequence items induction =>
      simp only [toJson, itemsToJson_eq_map, Json.everywhere_array, List.forall_mem_map, nodes,
        List.forall_mem_cons, mem_itemNodes]
      refine and_congr_right fun _ => ⟨?_, ?_⟩
      · rintro all node ⟨item, member, inside⟩
        exact (induction item member).1 (all item member) node inside
      · exact fun all item member =>
          (induction item member).2 fun node inside => all node ⟨item, member, inside⟩
  | mapping members induction =>
      simp only [toJson, membersToJson_eq_map, Json.everywhere_object, List.forall_mem_map, nodes,
        List.forall_mem_cons, mem_memberNodes]
      refine and_congr_right fun _ => ⟨?_, ?_⟩
      · rintro all node ⟨entry, member, inside⟩
        exact (induction entry member).1 (all entry member) node inside
      · exact fun all entry member =>
          (induction entry member).2 fun node inside => all node ⟨entry, member, inside⟩
  | _ => simp [toJson, Json.Everywhere, Json.nodes, nodes]

/-! ## Values in order -/

theorem areOrdered_iff {items : List Value} :
    areOrdered items = true ↔ ∀ item ∈ items, isOrdered item = true := by
  induction items with
  | nil => simp [areOrdered]
  | cons item rest induction => simp [areOrdered, induction]

theorem ordered_mapping_iff {members : List (String × Value)} :
    (mapping members).isOrdered = true
      ↔ Sorted.Ascending members ∧ ∀ member ∈ members, member.2.isOrdered = true := by
  simp [isOrdered, membersOrdered_iff]

/-- Everything in a value in order is in order. -/
theorem isOrdered_of_mem_nodes {level : Nat} {value : Value} (ordered : value.isOrdered = true) :
    ∀ node ∈ value.nodes level, node.2.isOrdered = true := by
  induction value using induct generalizing level with
  | sequence items induction =>
      refine List.forall_mem_cons.2 ⟨ordered, fun node member => ?_⟩
      obtain ⟨item, among, inside⟩ := mem_itemNodes.1 member
      exact induction item among (areOrdered_iff.1 ordered item among) node inside
  | mapping members induction =>
      refine List.forall_mem_cons.2 ⟨ordered, fun node member => ?_⟩
      obtain ⟨entry, among, inside⟩ := mem_memberNodes.1 member
      exact induction entry among ((ordered_mapping_iff.1 ordered).2 entry among) node inside
  | _ => exact List.forall_mem_singleton.2 ordered

/-- The tree of a value in order repeats no key. -/
theorem keysDistinct_of_isOrdered {level : Nat} {value : Value}
    (ordered : value.isOrdered = true) :
    value.toJson.Everywhere (fun _ node => node.KeysDistinct) level := by
  refine (everywhere_toJson value).2 fun node member => ?_
  have inOrder := isOrdered_of_mem_nodes ordered node member
  cases shape : node.2 with
  | mapping members =>
      rw [shape] at inOrder
      have distinct := Sorted.nodup_of_ascending (ordered_mapping_iff.1 inOrder).1
      rw [toJson, membersToJson_eq_map]
      simpa [Json.KeysDistinct, Function.comp_def] using distinct
  | _ => trivial

end SignedFacts.Value
