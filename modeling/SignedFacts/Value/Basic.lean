import SignedFacts.Number.Decimal
import SignedFacts.Table.Sorted
import SignedFacts.Text.Quoted

/-!
# Values and payloads

A value is what a payload holds: null, truth values, decimal numbers, strings,
sequences, and mappings whose members stand in ascending order of their keys.
`Value.isOrdered` says that of every mapping inside a value, `Value.arrange`
brings it about, and a `Payload` is a mapping that has it.

`Value.chars` is the canonical text: no blanks, members in order, numbers in
their one spelling and strings in theirs.
-/

namespace SignedFacts

/-- What a payload holds. -/
inductive Value where
  /-- Null. -/
  | null
  /-- A truth value. -/
  | bool (value : Bool)
  /-- A number. -/
  | number (value : Decimal)
  /-- A string. -/
  | string (text : String)
  /-- A sequence. -/
  | sequence (items : List Value)
  /-- A mapping. -/
  | mapping (members : List (String × Value))

namespace Value

/-! ## Equality -/

mutual

/-- Whether two values are the same. -/
def same : Value → Value → Bool
  | .null, .null => true
  | .bool a, .bool b => a == b
  | .number a, .number b => a = b
  | .string a, .string b => a = b
  | .sequence a, .sequence b => sameItems a b
  | .mapping a, .mapping b => sameMembers a b
  | _, _ => false

/-- Whether two lists hold the same values. -/
def sameItems : List Value → List Value → Bool
  | [], [] => true
  | a :: as, b :: bs => same a b && sameItems as bs
  | _, _ => false

/-- Whether two lists hold the same members. -/
def sameMembers : List (String × Value) → List (String × Value) → Bool
  | [], [] => true
  | (j, a) :: as, (k, b) :: bs => decide (j = k) && same a b && sameMembers as bs
  | _, _ => false

end

mutual

theorem same_iff : ∀ a b : Value, same a b = true ↔ a = b
  | .null, b => by cases b <;> simp [same]
  | .bool a, b => by cases b <;> simp [same]
  | .number a, b => by cases b <;> simp [same]
  | .string a, b => by cases b <;> simp [same]
  | .sequence a, b => by
      cases b with
      | sequence b => simpa [same] using sameItems_iff a b
      | _ => simp [same]
  | .mapping a, b => by
      cases b with
      | mapping b => simpa [same] using sameMembers_iff a b
      | _ => simp [same]

theorem sameItems_iff : ∀ a b : List Value, sameItems a b = true ↔ a = b
  | [], b => by cases b <;> simp [sameItems]
  | a :: as, b => by
      cases b with
      | nil => simp [sameItems]
      | cons b bs => simp [sameItems, same_iff a b, sameItems_iff as bs]

theorem sameMembers_iff : ∀ a b : List (String × Value), sameMembers a b = true ↔ a = b
  | [], b => by cases b <;> simp [sameMembers]
  | (j, a) :: as, b => by
      cases b with
      | nil => simp [sameMembers]
      | cons b bs =>
          obtain ⟨k, b⟩ := b
          simp [sameMembers, same_iff a b, sameMembers_iff as bs]

end

instance : DecidableEq Value := fun a b => decidable_of_iff _ (same_iff a b)

/-! ## Order of members -/

mutual

/-- Whether the keys ascend in every mapping of a value. -/
def isOrdered : Value → Bool
  | .sequence items => areOrdered items
  | .mapping members => decide (Sorted.Ascending members) && membersOrdered members
  | _ => true

/-- Whether the keys ascend in every mapping of some values. -/
def areOrdered : List Value → Bool
  | [] => true
  | item :: rest => isOrdered item && areOrdered rest

/-- Whether the keys ascend in every mapping of the values of members. -/
def membersOrdered : List (String × Value) → Bool
  | [] => true
  | (_, value) :: rest => isOrdered value && membersOrdered rest

end

mutual

/-- The value with every mapping in order.  Of members with one key the last is
kept. -/
def arrange : Value → Value
  | .sequence items => .sequence (arrangeItems items)
  | .mapping members => .mapping (Sorted.collect .last (arrangeMembers members))
  | value => value

/-- Items, each with every mapping in order. -/
def arrangeItems : List Value → List Value
  | [] => []
  | item :: rest => arrange item :: arrangeItems rest

/-- Members in the order given, their values with every mapping in order. -/
def arrangeMembers : List (String × Value) → List (String × Value)
  | [] => []
  | (key, value) :: rest => (key, arrange value) :: arrangeMembers rest

end

theorem membersOrdered_iff {members : List (String × Value)} :
    membersOrdered members = true ↔ ∀ member ∈ members, isOrdered member.2 = true := by
  induction members with
  | nil => simp [membersOrdered]
  | cons member rest induction => simp [membersOrdered, induction]

mutual

theorem isOrdered_arrange : ∀ value : Value, isOrdered (arrange value) = true
  | .null => rfl
  | .bool _ => rfl
  | .number _ => rfl
  | .string _ => rfl
  | .sequence items => by simpa [arrange, isOrdered] using areOrdered_arrangeItems items
  | .mapping members => by
      simp only [arrange, isOrdered, Bool.and_eq_true, decide_eq_true_eq]
      refine ⟨Sorted.ascending_collect _ _, membersOrdered_iff.2 fun member inside => ?_⟩
      exact membersOrdered_iff.1 (membersOrdered_arrangeMembers members) member
        (Sorted.mem_collect inside)

theorem areOrdered_arrangeItems : ∀ items : List Value, areOrdered (arrangeItems items) = true
  | [] => rfl
  | item :: rest => by
      simp [arrangeItems, areOrdered, isOrdered_arrange item, areOrdered_arrangeItems rest]

theorem membersOrdered_arrangeMembers :
    ∀ members : List (String × Value), membersOrdered (arrangeMembers members) = true
  | [] => rfl
  | (_, value) :: rest => by
      simp [arrangeMembers, membersOrdered, isOrdered_arrange value,
        membersOrdered_arrangeMembers rest]

end

/-! ## Canonical text -/

mutual

/-- The canonical text of a value. -/
def chars : Value → List Char
  | .null => ['n', 'u', 'l', 'l']
  | .bool true => ['t', 'r', 'u', 'e']
  | .bool false => ['f', 'a', 'l', 's', 'e']
  | .number value => value.chars
  | .string text => Text.quoted text
  | .sequence [] => ['[', ']']
  | .sequence (item :: rest) => '[' :: chars item ++ itemsChars rest
  | .mapping [] => ['\x7b', '\x7d']
  | .mapping ((key, value) :: rest) =>
      '\x7b' :: Text.quoted key ++ ':' :: chars value ++ membersChars rest

/-- The canonical text of the items after the first, with the bracket. -/
def itemsChars : List Value → List Char
  | [] => [']']
  | item :: rest => ',' :: chars item ++ itemsChars rest

/-- The canonical text of the members after the first, with the brace. -/
def membersChars : List (String × Value) → List Char
  | [] => ['\x7d']
  | (key, value) :: rest => ',' :: Text.quoted key ++ ':' :: chars value ++ membersChars rest

end

/-- The canonical text of a value. -/
def text (value : Value) : String := String.ofList value.chars

end Value

/-! ## Payloads -/

/-- A mapping in order, down to the last mapping inside it. -/
structure Payload where
  /-- The members. -/
  members : List (String × Value)
  /-- The members and those of every mapping inside are in order. -/
  ordered : (Value.mapping members).isOrdered = true
  deriving DecidableEq

namespace Payload

/-- Two payloads with the same members are equal. -/
@[ext] theorem ext {p q : Payload} (members : p.members = q.members) : p = q := by
  cases p
  cases q
  cases members
  rfl

/-- The payload of members in any order, of those with one key the last. -/
def ofMembers (members : List (String × Value)) : Payload :=
  ⟨Sorted.collect .last (Value.arrangeMembers members),
    Value.isOrdered_arrange (.mapping members)⟩

/-- The payload without members. -/
def empty : Payload := ⟨[], by decide⟩

/-- The payload with one member more, in place of the one that is there. -/
def insert (key : String) (value : Value) (payload : Payload) : Payload :=
  ofMembers (payload.members ++ [(key, value)])

/-- The payload as a value. -/
def toValue (payload : Payload) : Value := .mapping payload.members

/-- The canonical text of a payload. -/
def chars (payload : Payload) : List Char := payload.toValue.chars

end Payload

end SignedFacts
