import SignedFacts.Proofs.Sample.Number
import SignedFacts.Proofs.Value.OfJson

/-!
# Spellings of one tree

The text of a tree in a style spells the JSON tree `Tree.toJson style`
(`Tree.spells_chars`).  The JSON trees of two styles differ in the numerals and in the
order of the members, and all of them have the same value (`Tree.ofJson_toJson`).  It is
what the tree means: numbers have the values that they stand for, and each member has its own
place (`Tree.means_toValue`).
-/

namespace SignedFacts.Sample

namespace Style

/-- Members in the order of a style. -/
def arrange {α : Type} (style : Style) (members : List α) : List α :=
  if style.reversed then members.reverse else members

variable {style : Style} {α : Type} {members : List α}

theorem arrange_perm : (style.arrange members).Perm members := by
  rw [arrange]
  split
  next => exact members.reverse_perm
  next => exact .refl members

theorem arrange_map {β : Type} (f : α → β) :
    style.arrange (members.map f) = (style.arrange members).map f := by
  rw [arrange, arrange]
  split
  next => exact (List.map_reverse ..).symm
  next => rfl

theorem blank_gap : Json.Blank style.gap := by
  rw [gap]
  split
  next =>
    have spaces : [' ', '\n', ' '].all Json.isSpace = true := rfl
    exact List.all_eq_true.1 spaces
  next => exact Json.blank_nil

end Style

namespace Tree

/-- Induction over trees, where a list or an object may use what it contains. -/
@[elab_as_elim] theorem induct {motive : Tree → Prop} (null : motive .null)
    (bool : ∀ value, motive (.bool value)) (int : ∀ value, motive (.int value))
    (decimal : ∀ units scale, motive (.decimal units scale))
    (string : ∀ text, motive (.string text))
    (array : ∀ items, (∀ item ∈ items, motive item) → motive (.array items))
    (object : ∀ members : List (String × Tree),
      (∀ member ∈ members, motive member.2) → motive (.object members)) :
    ∀ tree : Tree, motive tree :=
  @Tree.rec motive (fun items => ∀ item ∈ items, motive item)
    (fun members => ∀ member ∈ members, motive member.2) (fun member => motive member.2)
    null bool int decimal string array object
    nofun (fun _ _ first others => List.forall_mem_cons.2 ⟨first, others⟩)
    nofun (fun _ _ first others => List.forall_mem_cons.2 ⟨first, others⟩)
    fun _ _ value => value

/-! ## Everything in a tree -/

mutual

/-- Everything in a tree with its level, where the tree itself stands at `level`. -/
def nodes (level : Nat) : Tree → List (Nat × Tree)
  | .array items => (level, .array items) :: itemNodes (level + 1) items
  | .object members => (level, .object members) :: memberNodes (level + 1) members
  | tree => [(level, tree)]

/-- Everything in some trees with its level. -/
def itemNodes (level : Nat) : List Tree → List (Nat × Tree)
  | [] => []
  | item :: rest => nodes level item ++ itemNodes level rest

/-- Everything in the values of some members with its level. -/
def memberNodes (level : Nat) : List (String × Tree) → List (Nat × Tree)
  | [] => []
  | (_, tree) :: rest => nodes level tree ++ memberNodes level rest

end

theorem mem_itemNodes {level : Nat} {node : Nat × Tree} {items : List Tree} :
    node ∈ itemNodes level items ↔ ∃ item ∈ items, node ∈ item.nodes level := by
  induction items with
  | nil => simp [itemNodes]
  | cons item rest induction => simp [itemNodes, induction]

theorem mem_memberNodes {level : Nat} {node : Nat × Tree} {members : List (String × Tree)} :
    node ∈ memberNodes level members ↔ ∃ member ∈ members, node ∈ member.2.nodes level := by
  induction members with
  | nil => simp [memberNodes]
  | cons member rest induction => simp [memberNodes, induction]

/-- A tree is no object with two members of one key. -/
def KeysDistinct : Tree → Prop
  | .object members => (members.map (·.1)).Nodup
  | _ => True

/-- A tree is no object with a reserved key. -/
def KeysPlain : Tree → Prop
  | .object members => ∀ member ∈ members, Json.isReserved member.1 = false
  | _ => True

instance : DecidablePred KeysDistinct
  | .object members => inferInstanceAs (Decidable (members.map (·.1)).Nodup)
  | .null | .bool _ | .int _ | .decimal _ _ | .string _ | .array _ => isTrue trivial

instance : DecidablePred KeysPlain
  | .object members =>
      inferInstanceAs (Decidable (∀ member ∈ members, Json.isReserved member.1 = false))
  | .null | .bool _ | .int _ | .decimal _ _ | .string _ | .array _ => isTrue trivial

/-! ## The JSON tree of a tree -/

mutual

/-- The JSON tree that the text of a tree spells. -/
def toJson (style : Style) : Tree → Json
  | .null => .null
  | .bool value => .bool value
  | .int value => .number (integerNumeral style value.toInt).explicit
  | .decimal units scale => .number (decimalNumeral style units.toInt scale.toNat).explicit
  | .string text => .string text
  | .array items => .array (itemsToJson style items)
  | .object members => .object (style.arrange (membersToJson style members))

/-- The JSON trees of some trees. -/
def itemsToJson (style : Style) : List Tree → List Json
  | [] => []
  | item :: rest => toJson style item :: itemsToJson style rest

/-- Members with the JSON trees of their values, in the order given. -/
def membersToJson (style : Style) : List (String × Tree) → List (String × Json)
  | [] => []
  | (key, tree) :: rest => (key, toJson style tree) :: membersToJson style rest

end

section Maps

variable {style : Style} {items : List Tree} {members : List (String × Tree)}

theorem itemsToJson_eq_map : itemsToJson style items = items.map (toJson style) := by
  induction items with
  | nil => rfl
  | cons item rest induction => rw [itemsToJson, induction, List.map_cons]

theorem membersToJson_eq_map : membersToJson style members
    = members.map fun member => (member.1, member.2.toJson style) := by
  induction members with
  | nil => rfl
  | cons member rest induction => rw [membersToJson, induction, List.map_cons]

theorem itemTexts_eq_map : itemTexts style items = items.map (chars style) := by
  induction items with
  | nil => rfl
  | cons item rest induction => rw [itemTexts, induction, List.map_cons]

/-- The text of a member. -/
def memberText (style : Style) (member : String × Tree) : List Char :=
  Text.quoted member.1 ++ style.gap ++ ':' :: style.gap ++ chars style member.2

theorem memberTexts_eq_map : memberTexts style members = members.map (memberText style) := by
  induction members with
  | nil => rfl
  | cons member rest induction =>
      rw [memberTexts, induction, List.map_cons]
      rfl

theorem itemValues_eq_map : itemValues items = items.map toValue := by
  induction items with
  | nil => rfl
  | cons item rest induction => rw [itemValues, induction, List.map_cons]

theorem memberValues_eq_map : memberValues members
    = members.map fun member => (member.1, member.2.toValue) := by
  induction members with
  | nil => rfl
  | cons member rest induction => rw [memberValues, induction, List.map_cons]

end Maps

/-- What holds of the JSON trees of all nodes holds everywhere in the JSON tree. -/
theorem everywhere_toJson {style : Style} {property : Nat → Json → Prop} {level : Nat} {tree : Tree}
    (each : ∀ node ∈ tree.nodes level, property node.1 (node.2.toJson style)) :
    (tree.toJson style).Everywhere property level := by
  induction tree using induct generalizing level with
  | array items induction =>
      obtain ⟨root, inside⟩ := List.forall_mem_cons.1 each
      rw [toJson] at root ⊢
      rw [itemsToJson_eq_map] at root ⊢
      refine Json.everywhere_array.2 ⟨root, List.forall_mem_map.2 fun item member => ?_⟩
      exact induction item member fun node among =>
        inside node (mem_itemNodes.2 ⟨item, member, among⟩)
  | object members induction =>
      obtain ⟨root, inside⟩ := List.forall_mem_cons.1 each
      rw [toJson, membersToJson_eq_map] at root ⊢
      refine Json.everywhere_object.2 ⟨root, fun member placed => ?_⟩
      obtain ⟨source, given, rfl⟩ := List.mem_map.1 (Style.arrange_perm.mem_iff.1 placed)
      exact induction source given fun node among =>
        inside node (mem_memberNodes.2 ⟨source, given, among⟩)
  | _ => exact Json.everywhere_of_scalar rfl (each _ (.head _))

/-- The keys of an object are those of its JSON tree, perhaps the other way round. -/
theorem keys_arrange_perm (style : Style) (members : List (String × Tree)) :
    ((style.arrange (membersToJson style members)).map (·.1)).Perm (members.map (·.1)) := by
  have keys : (membersToJson style members).map (·.1) = members.map (·.1) := by
    rw [membersToJson_eq_map, List.map_map]
    rfl
  rw [← keys]
  exact Style.arrange_perm.map _

theorem KeysDistinct.toJson {tree : Tree} (distinct : tree.KeysDistinct) (style : Style) :
    (tree.toJson style).KeysDistinct := by
  cases tree with
  | object members => exact (keys_arrange_perm style members).nodup_iff.2 distinct
  | _ => trivial

theorem KeysPlain.toJson {tree : Tree} (plain : tree.KeysPlain) (style : Style) :
    (tree.toJson style).KeysPlain := by
  cases tree with
  | object members =>
      intro member placed
      have key := (keys_arrange_perm style members).mem_iff.1 (List.mem_map_of_mem placed)
      obtain ⟨source, given, same⟩ := List.mem_map.1 key
      exact same ▸ plain source given
  | _ => trivial

/-! ## The text of a tree -/

/-- Parts with commas between them and gaps around them.  What is known of one part with a gap
in front and blanks behind is enough to know the rule for all of them. -/
theorem intercalate_induct {α β : Type} {Part : List Char → β → Prop}
    {Parts : List Char → List β → Prop}
    (one : ∀ text part, Part text part → Parts text [part])
    (more : ∀ text rest part parts, Part text part → Parts rest parts →
      Parts (text ++ ',' :: rest) (part :: parts))
    {gap : List Char} (blank : Json.Blank gap) (text : α → List Char) (result : α → β)
    {items : List α} (some : items ≠ [])
    (each : ∀ item ∈ items, ∀ after, Json.Blank after →
      Part (gap ++ text item ++ after) (result item)) :
    Parts ([','].intercalate ((items.map text).map (gap ++ ·)) ++ gap) (items.map result) := by
  induction items with
  | nil => exact absurd rfl some
  | cons item rest induction =>
      obtain ⟨first, others⟩ := List.forall_mem_cons.1 each
      cases rest with
      | nil => simpa using one _ _ (first gap blank)
      | cons next rest =>
          have whole := more _ _ _ _ (first [] Json.blank_nil)
            (induction (List.cons_ne_nil _ _) others)
          simpa using whole

/-- A member with a gap in front spells its key and its value. -/
theorem spells_memberText {style : Style} {member : String × Tree}
    (spelled : Json.Spells (member.2.chars style) (member.2.toJson style)) {after : List Char}
    (blank : Json.Blank after) :
    Json.SpellsMember (style.gap ++ memberText style member ++ after)
      (member.1, member.2.toJson style) := by
  have whole := Json.SpellsMember.mk style.blank_gap (Text.spells_flatMap member.1.toList)
    style.blank_gap (.mk style.blank_gap spelled blank)
  rw [String.ofList_toList] at whole
  simpa [memberText, Text.quoted] using whole

theorem scale_le (scale : UInt8) : scale.toNat ≤ 1000 := by
  have small := scale.toNat_lt
  omega

/-- The text of a tree spells its JSON tree. -/
theorem spells_chars (style : Style) (tree : Tree) :
    Json.Spells (tree.chars style) (tree.toJson style) := by
  induction tree using induct with
  | null => exact .null
  | bool value =>
      cases value with
      | true => exact .yes
      | false => exact .no
  | int value => exact .number (writes_integerChars style value.toInt).spelled
  | decimal units scale =>
      exact .number (writes_decimalChars style units.toInt (scale_le scale)).spelled
  | string text => exact Text.spells_quoted text
  | array items induction =>
      rw [chars, toJson, itemTexts_eq_map, itemsToJson_eq_map]
      by_cases none : items = []
      · subst none
        exact .emptyArray style.blank_gap
      · refine .array (@intercalate_induct _ _ Json.SpellsPadded Json.SpellsItems
          (fun _ _ => .one) (fun _ _ _ _ => .more) _ style.blank_gap _ _ _ none ?_)
        intro item member after blank
        exact .mk style.blank_gap (induction item member) blank
  | object members induction =>
      rw [chars, toJson, memberTexts_eq_map, membersToJson_eq_map, Style.arrange_map]
      have text : (if style.reversed then (members.map (memberText style)).reverse
          else members.map (memberText style)) = (style.arrange members).map (memberText style) :=
        Style.arrange_map _
      simp only [text]
      by_cases none : style.arrange members = []
      · rw [none]
        exact .emptyObject style.blank_gap
      · refine .object (@intercalate_induct _ _ Json.SpellsMember Json.SpellsMembers
          (fun _ _ => .one) (fun _ _ _ _ => .more) _ style.blank_gap _ _ _ none ?_)
        intro member placed after blank
        exact spells_memberText (induction member (Style.arrange_perm.mem_iff.1 placed)) blank

/-! ## The value of a tree -/

/-- Whatever the style, the JSON tree has the value that the tree means. -/
theorem ofJson_toJson {style : Style} {limit level : Nat} {tree : Tree}
    (within : ∀ node ∈ tree.nodes level, node.1 ≤ limit)
    (distinct : ∀ node ∈ tree.nodes level, node.2.KeysDistinct) :
    Value.ofJson .last limit level (tree.toJson style) = .ok tree.toValue := by
  induction tree using induct generalizing level with
  | int value =>
      have read := (writes_integerChars style value.toInt).read
      exact Value.ofJson_number_eq_ok_iff.2 ⟨within _ (.head _), _, rfl, read⟩
  | decimal units scale =>
      have read := (writes_decimalChars style units.toInt (scale_le scale)).read
      exact Value.ofJson_number_eq_ok_iff.2 ⟨within _ (.head _), _, rfl, read⟩
  | array items induction =>
      obtain ⟨room, within⟩ := List.forall_mem_cons.1 within
      obtain ⟨_, distinct⟩ := List.forall_mem_cons.1 distinct
      rw [toJson, toValue, itemsToJson_eq_map, itemValues_eq_map, Value.ofJson_array_eq_ok_iff,
        List.map_map]
      refine ⟨room, _, rfl, ?_⟩
      rw [List.map_map]
      refine List.map_congr_left fun item member => ?_
      exact induction item member
        (fun node among => within node (mem_itemNodes.2 ⟨item, member, among⟩))
        fun node among => distinct node (mem_itemNodes.2 ⟨item, member, among⟩)
  | object members induction =>
      obtain ⟨room, within⟩ := List.forall_mem_cons.1 within
      obtain ⟨keys, distinct⟩ := List.forall_mem_cons.1 distinct
      have results : (membersToJson style members).map (fun member =>
            (member.1, Value.ofJson .last limit (level + 1) member.2))
          = (memberValues members).map fun member => (member.1, .ok member.2) := by
        rw [membersToJson_eq_map, memberValues_eq_map, List.map_map, List.map_map]
        refine List.map_congr_left fun member among => congrArg (Prod.mk member.1) ?_
        exact induction member among
          (fun node deeper => within node (mem_memberNodes.2 ⟨member, among, deeper⟩))
          fun node deeper => distinct node (mem_memberNodes.2 ⟨member, among, deeper⟩)
      have keys : ((memberValues members).map (·.1)).Nodup := by
        rw [memberValues_eq_map, List.map_map]
        exact keys
      rw [toJson, toValue, Value.ofJson_object_eq_ok_iff, ← Style.arrange_map, results]
      refine ⟨room, _, rfl, ?_⟩
      refine (Sorted.collect_eq_of_perm ?_ Style.arrange_perm).trans (Sorted.collect_map _ keys)
      rwa [(Style.arrange_perm.map _).nodup_iff, List.map_map]
  | _ =>
      have room : level ≤ limit := within _ (.head _)
      rw [toJson, toValue, Value.ofJson, if_neg (Nat.not_lt.2 room)]

/-! ## What a tree means -/

mutual

/-- A value is what a tree stands for.  Numbers are compared as rational numbers, and the
members of an object may stand in any order. -/
def Means : Tree → Value → Prop
  | .null, value => value = .null
  | .bool truth, value => value = .bool truth
  | .int n, value => ∃ x, value = .number x ∧ x.value = n.toInt
  | .decimal units scale, value =>
      ∃ x, value = .number x ∧ x.value = units.toInt / 10 ^ scale.toNat
  | .string text, value => value = .string text
  | .array items, value => ∃ values, value = .sequence values ∧ ItemsMean items values
  | .object members, value => ∃ entries, value = .mapping entries
      ∧ (entries.map (·.1)).Perm (members.map (·.1)) ∧ MembersMean members entries

/-- Values are what trees stand for, one by one. -/
def ItemsMean : List Tree → List Value → Prop
  | [], [] => True
  | item :: rest, value :: values => Means item value ∧ ItemsMean rest values
  | _, _ => False

/-- The value of each member stands under its key. -/
def MembersMean : List (String × Tree) → List (String × Value) → Prop
  | [], _ => True
  | (key, tree) :: rest, entries =>
      (∃ value, (key, value) ∈ entries ∧ Means tree value) ∧ MembersMean rest entries

end

theorem itemsMean_map {items : List Tree} {f : Tree → Value}
    (each : ∀ item ∈ items, item.Means (f item)) : ItemsMean items (items.map f) := by
  induction items with
  | nil => exact trivial
  | cons item rest induction =>
      obtain ⟨first, others⟩ := List.forall_mem_cons.1 each
      exact ⟨first, induction others⟩

theorem membersMean_iff {members : List (String × Tree)} {entries : List (String × Value)} :
    MembersMean members entries
      ↔ ∀ member ∈ members, ∃ value, (member.1, value) ∈ entries ∧ member.2.Means value := by
  induction members with
  | nil => simp [MembersMean]
  | cons member rest induction => simp [MembersMean, induction]

/-- A tree without repeated keys stands for its value. -/
theorem means_toValue {level : Nat} {tree : Tree}
    (distinct : ∀ node ∈ tree.nodes level, node.2.KeysDistinct) : tree.Means tree.toValue := by
  induction tree using induct generalizing level with
  | int value => exact ⟨_, rfl, Decimal.value_ofInt _⟩
  | decimal units scale => exact ⟨_, rfl, Decimal.value_make _ _⟩
  | array items induction =>
      obtain ⟨_, inside⟩ := List.forall_mem_cons.1 distinct
      rw [toValue, itemValues_eq_map]
      refine ⟨_, rfl, itemsMean_map fun item member => ?_⟩
      exact induction item member fun node among =>
        inside node (mem_itemNodes.2 ⟨item, member, among⟩)
  | object members induction =>
      obtain ⟨keys, inside⟩ := List.forall_mem_cons.1 distinct
      have sorted : (Sorted.collect .last (members.map fun member =>
          (member.1, member.2.toValue))).Perm (members.map fun member =>
            (member.1, member.2.toValue)) := by
        refine Sorted.collect_perm ?_
        rw [List.map_map]
        exact keys
      rw [toValue, memberValues_eq_map]
      refine ⟨_, rfl, ?_, membersMean_iff.2 fun member among => ⟨member.2.toValue, ?_, ?_⟩⟩
      · simpa [Function.comp_def] using sorted.map (·.1)
      · exact sorted.mem_iff.2 (List.mem_map_of_mem among)
      · exact induction member among fun node deeper =>
          inside node (mem_memberNodes.2 ⟨member, among, deeper⟩)
  | _ => rfl

end Tree

end SignedFacts.Sample
