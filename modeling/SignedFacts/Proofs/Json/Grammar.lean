import SignedFacts.Json.Scan
import SignedFacts.Proofs.Number.Grammar

/-!
# The grammar of JSON texts

What it is for a text to spell a tree, said without a reader.  `Spells` is the
grammar of values, one constructor for each shape, and `SpellsPadded` allows
blanks around a value, which is also what a whole JSON text is.  Strings are
spelled character by character, and a half of a surrogate pair has no spelling
of its own.

The nesting limit and the rule that keys are not repeated are no part of the
grammar.  They are said of the tree.
-/

namespace SignedFacts.Json

/-! ## Strings -/

/-- The letters that may follow a backslash, and what they stand for. -/
def escapes : List (Char × Char) :=
  [('"', '"'), ('\\', '\\'), ('/', '/'), ('b', '\x08'), ('f', '\x0c'), ('n', '\n'),
    ('r', '\r'), ('t', '\t')]

/-- The value of a hexadecimal digit of either case. -/
def hexValue? (c : Char) : Option Nat :=
  if '0' ≤ c ∧ c ≤ '9' then some (c.toNat - 48)
  else if 'a' ≤ c ∧ c ≤ 'f' then some (c.toNat - 87)
  else if 'A' ≤ c ∧ c ≤ 'F' then some (c.toNat - 55)
  else none

/-- Four hexadecimal digits and their number. -/
inductive SpellsUnit : List Char → Nat → Prop where
  | digits {p q r s : Char} {a b c d : Nat} :
      hexValue? p = some a → hexValue? q = some b → hexValue? r = some c →
      hexValue? s = some d →
      SpellsUnit [p, q, r, s] (a * 4096 + b * 256 + c * 16 + d)

/-- The number of a half of a surrogate pair. -/
def IsSurrogate (unit : Nat) : Prop := 0xD800 ≤ unit ∧ unit ≤ 0xDFFF

/-- A text between quotes and the characters it spells. -/
inductive SpellsString : List Char → List Char → Prop where
  | nil : SpellsString [] []
  | plain {c : Char} {text chars : List Char} :
      c ≠ '"' → c ≠ '\\' → 0x20 ≤ c.toNat → SpellsString text chars →
      SpellsString (c :: text) (c :: chars)
  | escape {letter c : Char} {text chars : List Char} :
      (letter, c) ∈ escapes → SpellsString text chars →
      SpellsString ('\\' :: letter :: text) (c :: chars)
  | unit {digits : List Char} {number : Nat} {text chars : List Char} :
      SpellsUnit digits number → ¬ IsSurrogate number → SpellsString text chars →
      SpellsString ('\\' :: 'u' :: digits ++ text) (Char.ofNat number :: chars)
  | pair {digits more : List Char} {high low : Nat} {text chars : List Char} :
      SpellsUnit digits high → 0xD800 ≤ high → high ≤ 0xDBFF →
      SpellsUnit more low → 0xDC00 ≤ low → low ≤ 0xDFFF → SpellsString text chars →
      SpellsString ('\\' :: 'u' :: digits ++ '\\' :: 'u' :: more ++ text)
        (Char.ofNat (0x10000 + (high - 0xD800) * 0x400 + (low - 0xDC00)) :: chars)

/-! ## Values -/

/-- Nothing but blanks. -/
def Blank (text : List Char) : Prop := ∀ c ∈ text, isSpace c = true

/-- A number of a JSON text.  A zero in front of other digits is none. -/
def SpellsNumber (text : List Char) (n : Numeral) : Prop :=
  Numeral.Spells text n ∧ (n.whole = ['0'] ∨ n.whole.head? ≠ some '0')

mutual

/-- A text without blanks around it spells a value. -/
inductive Spells : List Char → Json → Prop where
  | null : Spells ['n', 'u', 'l', 'l'] .null
  | yes : Spells ['t', 'r', 'u', 'e'] (.bool true)
  | no : Spells ['f', 'a', 'l', 's', 'e'] (.bool false)
  | number {text : List Char} {n : Numeral} :
      SpellsNumber text n → Spells text (.number n.explicit)
  | string {text chars : List Char} :
      SpellsString text chars → Spells ('"' :: text ++ ['"']) (.string (String.ofList chars))
  | emptyArray {blanks : List Char} :
      Blank blanks → Spells ('[' :: blanks ++ [']']) (.array [])
  | array {text : List Char} {items : List Json} :
      SpellsItems text items → Spells ('[' :: text ++ [']']) (.array items)
  | emptyObject {blanks : List Char} :
      Blank blanks → Spells ('\x7b' :: blanks ++ ['\x7d']) (.object [])
  | object {text : List Char} {members : List (String × Json)} :
      SpellsMembers text members → Spells ('\x7b' :: text ++ ['\x7d']) (.object members)

/-- A text spells a value with blanks around it. -/
inductive SpellsPadded : List Char → Json → Prop where
  | mk {before text after : List Char} {json : Json} :
      Blank before → Spells text json → Blank after → SpellsPadded (before ++ text ++ after) json

/-- A text spells the items of a list, one at least, with commas between. -/
inductive SpellsItems : List Char → List Json → Prop where
  | one {text : List Char} {item : Json} : SpellsPadded text item → SpellsItems text [item]
  | more {text rest : List Char} {item : Json} {items : List Json} :
      SpellsPadded text item → SpellsItems rest items →
      SpellsItems (text ++ ',' :: rest) (item :: items)

/-- A text spells a member of an object, a key and a value with a colon between. -/
inductive SpellsMember : List Char → String × Json → Prop where
  | mk {before text chars after value : List Char} {json : Json} :
      Blank before → SpellsString text chars → Blank after → SpellsPadded value json →
      SpellsMember (before ++ '"' :: (text ++ '"' :: (after ++ ':' :: value)))
        (String.ofList chars, json)

/-- A text spells the members of an object, one at least, with commas between. -/
inductive SpellsMembers : List Char → List (String × Json) → Prop where
  | one {text : List Char} {member : String × Json} :
      SpellsMember text member → SpellsMembers text [member]
  | more {text rest : List Char} {member : String × Json} {members : List (String × Json)} :
      SpellsMember text member → SpellsMembers rest members →
      SpellsMembers (text ++ ',' :: rest) (member :: members)

end

end SignedFacts.Json
