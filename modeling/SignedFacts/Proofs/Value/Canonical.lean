import Mathlib.Tactic.SplitIfs
import SignedFacts.Proofs.Json.Completeness
import SignedFacts.Proofs.Number.Spelling
import SignedFacts.Value.Basic

/-!
# Canonical texts

The tree of a value, and that the canonical text of the value spells it
(`Value.spells_chars`).  Since no text spells two trees and no tree is that of
two values, the canonical text determines the value (`Value.chars_injective`).
-/

namespace SignedFacts

/-! ## Quoted strings -/

namespace Text

theorem spells_control (code : Nat) (control : code < 0x20) :
    Json.SpellsUnit ('0' :: '0' :: Hex.octetDigits (UInt8.ofNat code)) code := by
  have halves : ∀ code < 0x20,
      Json.hexValue? (Hex.digit (UInt8.ofNat code / 16)) = some (code / 16)
        ∧ Json.hexValue? (Hex.digit (UInt8.ofNat code % 16)) = some (code % 16) := by decide
  obtain ⟨high, low⟩ := halves code control
  have zero : Json.hexValue? '0' = some 0 := rfl
  have spelled := Json.SpellsUnit.digits zero zero high low
  have whole : 0 * 4096 + 0 * 256 + code / 16 * 16 + code % 16 = code := by omega
  rwa [whole] at spelled

theorem spells_quotedChar (c : Char) {text chars : List Char}
    (rest : Json.SpellsString text chars) :
    Json.SpellsString (quotedChar c ++ text) (c :: chars) := by
  have escape (letter c : Char) (known : (letter, c) ∈ Json.escapes) :
      Json.SpellsString ('\\' :: letter :: text) (c :: chars) := .escape known rest
  rw [quotedChar]
  split_ifs with quote backslash back form line carriage tab control
  · exact quote ▸ escape '"' '"' (by simp [Json.escapes])
  · exact backslash ▸ escape '\\' '\\' (by simp [Json.escapes])
  · exact back ▸ escape 'b' '\x08' (by simp [Json.escapes])
  · exact form ▸ escape 'f' '\x0c' (by simp [Json.escapes])
  · exact line ▸ escape 'n' '\n' (by simp [Json.escapes])
  · exact carriage ▸ escape 'r' '\r' (by simp [Json.escapes])
  · exact tab ▸ escape 't' '\t' (by simp [Json.escapes])
  · have whole : ¬ Json.IsSurrogate c.toNat := fun half => by
      have := half.1
      omega
    have spelled := Json.SpellsString.unit (spells_control _ control) whole rest
    rwa [Char.ofNat_toNat] at spelled
  · exact .plain quote backslash (Nat.le_of_not_lt control) rest

theorem spells_flatMap (chars : List Char) :
    Json.SpellsString (chars.flatMap quotedChar) chars := by
  induction chars with
  | nil => exact .nil
  | cons c chars induction =>
      rw [List.flatMap_cons]
      exact spells_quotedChar c induction

theorem spells_quoted (text : String) : Json.Spells (quoted text) (.string text) := by
  have spelled := Json.Spells.string (spells_flatMap text.toList)
  rwa [String.ofList_toList] at spelled

end Text

namespace Value

/-! ## The tree of a value -/

mutual

/-- The tree that the canonical text of a value spells. -/
def toJson : Value → Json
  | .null => .null
  | .bool value => .bool value
  | .number x => .number x.numeral
  | .string text => .string text
  | .sequence items => .array (itemsToJson items)
  | .mapping members => .object (membersToJson members)

/-- The trees of some values. -/
def itemsToJson : List Value → List Json
  | [] => []
  | item :: rest => toJson item :: itemsToJson rest

/-- Members with the trees of their values. -/
def membersToJson : List (String × Value) → List (String × Json)
  | [] => []
  | (key, value) :: rest => (key, toJson value) :: membersToJson rest

end

theorem itemsToJson_eq_map (items : List Value) : itemsToJson items = items.map toJson := by
  induction items with
  | nil => rfl
  | cons item rest induction => simp [itemsToJson, induction]

theorem membersToJson_eq_map (members : List (String × Value)) :
    membersToJson members = members.map fun member => (member.1, member.2.toJson) := by
  induction members with
  | nil => rfl
  | cons member rest induction => simp [membersToJson, induction]

mutual

theorem toJson_injective : ∀ {v w : Value}, v.toJson = w.toJson → v = w
  | v, w => by
      intro same
      cases v <;> cases w <;> simp only [toJson, reduceCtorEq] at same
      case null.null => rfl
      case bool.bool => rw [Json.bool.inj same]
      case number.number x y =>
        have read := Decimal.ofNumeral_numeral x
        rw [Json.number.inj same, Decimal.ofNumeral_numeral] at read
        rw [Except.ok.inj read]
      case string.string => rw [Json.string.inj same]
      case sequence.sequence items others =>
        rw [itemsToJson_injective (Json.array.inj same)]
      case mapping.mapping members others =>
        rw [membersToJson_injective (Json.object.inj same)]

theorem itemsToJson_injective : ∀ {items others : List Value},
    itemsToJson items = itemsToJson others → items = others
  | [], [], _ => rfl
  | item :: rest, other :: others, same => by
      rw [itemsToJson, itemsToJson, List.cons.injEq] at same
      rw [toJson_injective same.1, itemsToJson_injective same.2]

theorem membersToJson_injective : ∀ {members others : List (String × Value)},
    membersToJson members = membersToJson others → members = others
  | [], [], _ => rfl
  | (key, value) :: rest, (_, other) :: others, same => by
      rw [membersToJson, membersToJson, List.cons.injEq, Prod.mk.injEq] at same
      rw [same.1.1, toJson_injective same.1.2, membersToJson_injective same.2]

end

/-! ## The canonical text -/

theorem spellsNumber_chars (x : Decimal) : Json.SpellsNumber x.chars x.numeral := by
  refine ⟨?_, x.head_numeral⟩
  rw [← x.chars_numeral]
  exact Numeral.spells_chars x.wellFormed_numeral

theorem spells_number (x : Decimal) : Json.Spells x.chars (.number x.numeral) :=
  .number (spellsNumber_chars x)

theorem padded {text : List Char} {json : Json} (spelled : Json.Spells text json) :
    Json.SpellsPadded text json := by
  simpa using Json.SpellsPadded.mk Json.blank_nil spelled Json.blank_nil

theorem spells_member (key : String) {text : List Char} {json : Json}
    (spelled : Json.SpellsPadded text json) :
    Json.SpellsMember (Text.quoted key ++ ':' :: text) (key, json) := by
  have member := Json.SpellsMember.mk Json.blank_nil (Text.spells_flatMap key.toList)
    Json.blank_nil spelled
  rw [String.ofList_toList] at member
  simpa [Text.quoted] using member

mutual

/-- The canonical text of a value spells its tree. -/
theorem spells_chars : ∀ value : Value, Json.Spells value.chars value.toJson
  | .null => .null
  | .bool true => .yes
  | .bool false => .no
  | .number x => spells_number x
  | .string text => Text.spells_quoted text
  | .sequence [] => .emptyArray Json.blank_nil
  | .sequence (item :: rest) => by
      obtain ⟨text, shape, spelled⟩ := spells_itemsChars item rest (spells_chars item)
      rw [chars, List.cons_append, shape]
      exact .array spelled
  | .mapping [] => .emptyObject Json.blank_nil
  | .mapping ((key, value) :: rest) => by
      obtain ⟨text, shape, spelled⟩ := spells_membersChars key value rest (spells_chars value)
      rw [chars, List.append_assoc, List.cons_append, List.cons_append, shape]
      exact .object spelled

/-- Behind the text of an item stand the others and the bracket. -/
theorem spells_itemsChars : ∀ (item : Value) (rest : List Value),
    Json.Spells item.chars item.toJson →
      ∃ text, item.chars ++ itemsChars rest = text ++ [']']
        ∧ Json.SpellsItems text (item.toJson :: itemsToJson rest)
  | item, [], spelled => ⟨item.chars, rfl, .one (padded spelled)⟩
  | item, next :: rest, spelled => by
      obtain ⟨text, shape, others⟩ := spells_itemsChars next rest (spells_chars next)
      refine ⟨item.chars ++ ',' :: text, ?_, .more (padded spelled) others⟩
      simp [itemsChars, shape]

/-- Behind the text of a member stand the others and the brace. -/
theorem spells_membersChars : ∀ (key : String) (value : Value) (rest : List (String × Value)),
    Json.Spells value.chars value.toJson →
      ∃ text, Text.quoted key ++ (':' :: (value.chars ++ membersChars rest)) = text ++ ['\x7d']
        ∧ Json.SpellsMembers text ((key, value.toJson) :: membersToJson rest)
  | key, value, [], spelled =>
      ⟨Text.quoted key ++ ':' :: value.chars, by simp [membersChars],
        .one (spells_member key (padded spelled))⟩
  | key, value, (next, item) :: rest, spelled => by
      obtain ⟨text, shape, others⟩ := spells_membersChars next item rest (spells_chars item)
      refine ⟨Text.quoted key ++ ':' :: value.chars ++ ',' :: text, ?_,
        .more (spells_member key (padded spelled)) others⟩
      simp [membersChars, shape]

end

/-- The canonical text determines the value. -/
theorem chars_injective {v w : Value} (same : v.chars = w.chars) : v = w :=
  toJson_injective
    (Json.spellsPadded_unique (padded v.spells_chars) (same ▸ padded w.spells_chars))

end Value

end SignedFacts
