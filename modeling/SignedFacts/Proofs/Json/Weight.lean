import Mathlib.Algebra.BigOperators.Ring.List
import Mathlib.Algebra.Order.BigOperators.Group.List
import Mathlib.Algebra.Ring.Nat
import SignedFacts.Proofs.Json.Part
import SignedFacts.Proofs.Octets.Utf8
import SignedFacts.Text.Quoted

/-!
# The weight of a tree

A weight is summed up over everything in a tree (`weigh`).  The sum of `ownOctets` is a number
of octets that no text of the tree can do without (`weigh_ownOctets_le`).  It counts a string
as it is quoted, which takes no more octets than any other spelling
(`Text.width_quoted_le`), and it counts a number as it is handed on, without the sign that its
exponent may have got.  `exponents` is the number of the numbers with an exponent.
-/

namespace SignedFacts

/-! ## Strings -/

namespace Text

open Utf8 (width)

theorem width_quotedChar_le (c : Char) : width (quotedChar c) ≤ 6 := by
  have controls : ∀ code < 0x20,
      width ('\\' :: 'u' :: '0' :: '0' :: Hex.octetDigits (UInt8.ofNat code)) ≤ 6 := by decide
  rw [quotedChar]
  split_ifs with quote backslash back form line carriage tab control
  iterate 7 decide
  · exact controls _ control
  · have one := Utf8.length_charOctets_le c
    simp only [Utf8.width_cons, Utf8.width_nil]
    omega

theorem width_quotedChar_escaped :
    ∀ escape ∈ Json.escapes, width (quotedChar escape.2) ≤ width ['\\', escape.1] := by
  decide

theorem six_le_width_unit {digits : List Char} {number : Nat}
    (spelled : Json.SpellsUnit digits number) : 6 ≤ width ('\\' :: 'u' :: digits) := by
  cases spelled with
  | @digits p q r s =>
      exact Utf8.length_le_length_octets ('\\' :: 'u' :: [p, q, r, s])

/-- No spelling of a string is shorter than the one it is written in. -/
theorem width_flatMap_quotedChar_le {text chars : List Char}
    (spelled : Json.SpellsString text chars) : width (chars.flatMap quotedChar) ≤ width text := by
  induction spelled with
  | nil => exact Nat.le_refl 0
  | @plain c text chars quote backslash shown _ induction =>
      have same : quotedChar c = [c] := by
        have others : c ≠ '\x08' ∧ c ≠ '\x0c' ∧ c ≠ '\n' ∧ c ≠ '\r' ∧ c ≠ '\t' := by
          refine ⟨?_, ?_, ?_, ?_, ?_⟩ <;> (rintro rfl; exact absurd shown (by decide))
        simp [quotedChar, quote, backslash, others, Nat.not_lt.2 shown]
      rw [List.flatMap_cons, same, List.singleton_append, Utf8.width_cons, Utf8.width_cons]
      omega
  | @escape letter c text chars known _ induction =>
      have escaped := width_quotedChar_escaped _ known
      rw [List.flatMap_cons, Utf8.width_append]
      simp only [Utf8.width_cons, Utf8.width_nil] at escaped ⊢
      omega
  | @unit digits number text chars spelled _ _ induction =>
      have one := width_quotedChar_le (Char.ofNat number)
      have six := six_le_width_unit spelled
      rw [List.flatMap_cons, Utf8.width_append]
      simp only [List.cons_append, Utf8.width_cons, Utf8.width_append] at six ⊢
      omega
  | @pair digits more high low text chars spelled _ _ _ _ _ _ induction =>
      have one := width_quotedChar_le
        (Char.ofNat (0x10000 + (high - 0xD800) * 0x400 + (low - 0xDC00)))
      have six := six_le_width_unit spelled
      rw [List.flatMap_cons, Utf8.width_append]
      simp only [List.cons_append, Utf8.width_cons, Utf8.width_append] at six ⊢
      omega

theorem width_quoted_le {text chars : List Char} (spelled : Json.SpellsString text chars) :
    width (quoted (String.ofList chars)) ≤ width text + 2 := by
  have inner := width_flatMap_quotedChar_le spelled
  simp (disch := decide) only [quoted, String.toList_ofList, List.cons_append, Utf8.width_cons,
    Utf8.width_append, Utf8.width_nil, Utf8.length_charOctets_of_small]
  omega

end Text

namespace Json

/-! ## Sums over trees -/

/-- The sum of a weight over everything in a tree. -/
def weigh (weight : Json → Nat) (json : Json) : Nat :=
  ((json.nodes 1).map fun node => weight node.2).sum

section Sums

variable {weight : Json → Nat}

theorem sum_itemNodes {level : Nat} (items : List Json) :
    ((itemNodes level items).map fun node => weight node.2).sum
      = (items.map fun item => ((item.nodes level).map fun node => weight node.2).sum).sum := by
  induction items with
  | nil => rfl
  | cons item rest induction => simp [itemNodes, induction]

theorem sum_memberNodes {level : Nat} (members : List (String × Json)) :
    ((memberNodes level members).map fun node => weight node.2).sum
      = (members.map fun member =>
          ((member.2.nodes level).map fun node => weight node.2).sum).sum := by
  induction members with
  | nil => rfl
  | cons member rest induction => simp [memberNodes, induction]

/-- The levels make no difference. -/
theorem sum_nodes (level : Nat) (json : Json) :
    ((json.nodes level).map fun node => weight node.2).sum = json.weigh weight := by
  rw [weigh]
  generalize 1 = other
  induction json using induct generalizing level other with
  | array items induction =>
      simp only [nodes, List.map_cons, List.sum_cons, sum_itemNodes]
      rw [List.map_congr_left fun item member => induction item member (level + 1) (other + 1)]
  | object members induction =>
      simp only [nodes, List.map_cons, List.sum_cons, sum_memberNodes]
      rw [List.map_congr_left fun member among => induction member among (level + 1) (other + 1)]
  | _ => rfl

theorem weigh_array (items : List Json) :
    (Json.array items).weigh weight = weight (.array items) + (items.map (weigh weight)).sum := by
  rw [weigh]
  simp only [nodes, List.map_cons, List.sum_cons, sum_itemNodes, sum_nodes]

theorem weigh_object (members : List (String × Json)) :
    (Json.object members).weigh weight
      = weight (.object members) + (members.map fun member => member.2.weigh weight).sum := by
  rw [weigh]
  simp only [nodes, List.map_cons, List.sum_cons, sum_memberNodes, sum_nodes]

theorem weigh_of_scalar {json : Json} (scalar : json.isContainer = false) :
    json.weigh weight = weight json := by
  cases json with
  | array => cases scalar
  | object => cases scalar
  | _ => exact Nat.add_zero _

theorem weigh_add_mul (weight other : Json → Nat) (factor : Nat) (json : Json) :
    json.weigh (fun node => weight node + factor * other node)
      = json.weigh weight + factor * json.weigh other := by
  rw [weigh, List.sum_map_add, List.sum_map_mul_left]
  rfl

end Sums

/-! ## Numbers with an exponent -/

/-- Whether a tree is a number with an exponent. -/
def isScaled : Json → Bool
  | .number n => n.exponent.isSome
  | _ => false

/-- The number of the numbers with an exponent in a tree. -/
def exponents (json : Json) : Nat := (json.nodes 1).countP fun node => node.2.isScaled

theorem exponents_eq_weigh (json : Json) :
    json.exponents = json.weigh fun node => if node.isScaled then 1 else 0 := by
  rw [exponents, weigh]
  induction json.nodes 1 with
  | nil => rfl
  | cons node rest induction => rw [List.countP_cons, List.map_cons, List.sum_cons, induction,
      Nat.add_comm]

/-! ## Octets of texts -/

open Utf8 (width)

/-- What the text of a tree takes at least, besides what the trees in it take: marks, keys and
the words, numbers and strings themselves. -/
def ownOctets : Json → Nat
  | .null => 4
  | .bool true => 4
  | .bool false => 5
  | .number n => n.chars.length - n.exponent.toList.length
  | .string text => width (Text.quoted text)
  | .array items => 1 + max 1 items.length
  | .object members =>
      1 + max 1 members.length + (members.map fun member => width (Text.quoted member.1) + 1).sum

theorem weigh_items_le {text : List Char} {items : List Json} (spelled : SpellsItems text items)
    (each : ∀ item ∈ items, ∀ {part}, SpellsPadded part item → item.weigh ownOctets ≤ width part) :
    (items.map (weigh ownOctets)).sum + items.length ≤ width text + 1 := by
  induction items generalizing text with
  | nil => exact Nat.zero_le _
  | cons item rest induction =>
      obtain ⟨first, others⟩ := List.forall_mem_cons.1 each
      rw [List.map_cons, List.sum_cons, List.length_cons]
      cases spelled with
      | one padded =>
          have here := first padded
          simp only [List.map_nil, List.sum_nil, List.length_nil]
          omega
      | more padded behind =>
          have here := first padded
          have later := induction behind others
          simp (disch := decide) only [Utf8.width_append, Utf8.width_cons,
            Utf8.length_charOctets_of_small]
          omega

theorem weigh_member_le {text : List Char} {member : String × Json}
    (spelled : SpellsMember text member)
    (value : ∀ {part}, SpellsPadded part member.2 → member.2.weigh ownOctets ≤ width part) :
    member.2.weigh ownOctets + (width (Text.quoted member.1) + 1) ≤ width text := by
  cases spelled with
  | mk _ spelled _ padded =>
      have key := Text.width_quoted_le spelled
      have here := value padded
      simp (disch := decide) only [Utf8.width_append, Utf8.width_cons,
        Utf8.length_charOctets_of_small] at here ⊢
      omega

theorem weigh_members_le {text : List Char} {members : List (String × Json)}
    (spelled : SpellsMembers text members)
    (each : ∀ member ∈ members, ∀ {part}, SpellsPadded part member.2 →
      member.2.weigh ownOctets ≤ width part) :
    (members.map fun member => member.2.weigh ownOctets).sum
        + (members.map fun member => width (Text.quoted member.1) + 1).sum + members.length
      ≤ width text + 1 := by
  induction members generalizing text with
  | nil => exact Nat.zero_le _
  | cons member rest induction =>
      obtain ⟨first, others⟩ := List.forall_mem_cons.1 each
      simp only [List.map_cons, List.sum_cons, List.length_cons]
      cases spelled with
      | one spelled =>
          have here := weigh_member_le spelled first
          simp only [List.map_nil, List.sum_nil, List.length_nil]
          omega
      | more spelled behind =>
          have here := weigh_member_le spelled first
          have later := induction behind others
          simp (disch := decide) only [Utf8.width_append, Utf8.width_cons,
            Utf8.length_charOctets_of_small]
          omega

/-- A number without the sign of its exponent is no longer than it is spelled. -/
theorem length_le_of_spellsNumber {text : List Char} {n : Numeral} (spelled : SpellsNumber text n) :
    n.explicit.chars.length - n.explicit.exponent.toList.length ≤ width text := by
  have length := Numeral.length_of_spells spelled.1
  have octets := Utf8.length_le_length_octets text
  have signed := n.length_explicit_le
  rw [width]
  cases present : n.exponent with
  | none =>
      have same : n.explicit = n := by
        obtain ⟨_, _, _, _⟩ := n
        cases present
        rfl
      rw [same]
      omega
  | some e =>
      simp only [Numeral.explicit, present, Option.map_some, Option.toList_some,
        List.length_singleton] at signed ⊢
      omega

/-- A text between marks is two octets longer. -/
theorem width_marked (text : List Char) :
    width ('[' :: text ++ [']']) = width text + 2
      ∧ width ('\x7b' :: text ++ ['\x7d']) = width text + 2
      ∧ width ('"' :: text ++ ['"']) = width text + 2 := by
  simp (disch := decide) only [List.cons_append, Utf8.width_append, Utf8.width_cons,
    Utf8.width_nil, Utf8.length_charOctets_of_small]
  omega

/-- No text of a tree does with fewer octets. -/
theorem weigh_ownOctets_le {text : List Char} {json : Json} (spelled : Spells text json) :
    json.weigh ownOctets ≤ width text := by
  have padded {json : Json} (bare : ∀ {text}, Spells text json → json.weigh ownOctets ≤ width text)
      {text : List Char} (padded : SpellsPadded text json) : json.weigh ownOctets ≤ width text := by
    cases padded with
    | mk _ spelled _ =>
        have here := bare spelled
        simp only [Utf8.width_append]
        omega
  induction json using induct generalizing text with
  | null => cases spelled; decide
  | bool value => cases spelled <;> decide
  | number n =>
      cases spelled with
      | number spelled => exact length_le_of_spellsNumber spelled
  | string text =>
      cases spelled with
      | string spelled =>
          rw [(width_marked _).2.2, weigh_of_scalar rfl]
          exact Text.width_quoted_le spelled
  | array items induction =>
      rw [weigh_array, ownOctets]
      cases spelled with
      | emptyArray =>
          rw [(width_marked _).1]
          simp only [List.map_nil, List.sum_nil, List.length_nil]
          omega
      | array spelled =>
          have inside := weigh_items_le spelled fun item member => padded (induction item member)
          rw [(width_marked _).1]
          have := List.length_pos_iff.2 (show items ≠ [] by rintro rfl; cases spelled)
          omega
  | object members induction =>
      rw [weigh_object, ownOctets]
      cases spelled with
      | emptyObject =>
          rw [(width_marked _).2.1]
          simp only [List.map_nil, List.sum_nil, List.length_nil]
          omega
      | object spelled =>
          have inside := weigh_members_le spelled fun member among =>
            padded (induction member among)
          rw [(width_marked _).2.1]
          have := List.length_pos_iff.2 (show members ≠ [] by rintro rfl; cases spelled)
          omega

end Json

end SignedFacts
