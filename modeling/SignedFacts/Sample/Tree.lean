import SignedFacts.Record.Basic

/-!
# Spellings of a payload

A tree is a payload before it is spelled.  A style says how: in which order the
members stand, whether blanks are put in, and which of the spellings of a number
is taken.  `Tree.chars` is the text of a tree in a style, and `Tree.toValue` is
what the tree means, which no style can change.
-/

namespace SignedFacts.Sample

/-- A payload that has no spelling yet. -/
inductive Tree where
  /-- Null. -/
  | null
  /-- A truth value. -/
  | bool (value : Bool)
  /-- An integer. -/
  | int (value : Int64)
  /-- The number `units / 10 ^ scale`. -/
  | decimal (units : Int64) (scale : UInt8)
  /-- A string. -/
  | string (text : String)
  /-- A list. -/
  | array (items : List Tree)
  /-- An object. -/
  | object (members : List (String × Tree))

/-- How a tree is spelled. -/
structure Style where
  /-- Members stand in reverse. -/
  reversed : Bool
  /-- Blanks stand wherever they may. -/
  spaced : Bool
  /-- Numbers have an exponent. -/
  exponents : Bool
  /-- Fractions end in zeros. -/
  trailingZeros : Bool
  deriving DecidableEq, Repr

namespace Style

/-- The shortest spelling. -/
def compact : Style := ⟨false, false, false, false⟩

/-- What stands where blanks may. -/
def gap (style : Style) : List Char := if style.spaced then [' ', '\n', ' '] else []

end Style

/-! ## Numbers -/

/-- An integer in digits. -/
def intChars (n : Int) : List Char :=
  (if n < 0 then ['-'] else []) ++ Nat.toDigits 10 n.natAbs

/-- The spelling of an integer in a style. -/
def integerChars (style : Style) (n : Int) : List Char :=
  intChars n ++
    if style.exponents then ['E', '0'] else if style.trailingZeros then ['.', '0', '0'] else []

/-- The spelling of `units / 10 ^ scale` in a style. -/
def decimalChars (style : Style) (units : Int) (scale : Nat) : List Char :=
  if style.exponents then intChars units ++ 'e' :: '-' :: Nat.toDigits 10 scale
  else
    (if units < 0 then ['-'] else []) ++ Decimal.unsignedChars units.natAbs scale ++
      if style.trailingZeros then if scale = 0 then ['.', '0'] else ['0'] else []

/-! ## Trees -/

/-- Texts between brackets, with commas between them and gaps where blanks
may stand. -/
def enclose (gap : List Char) (opening closing : Char) (texts : List (List Char)) : List Char :=
  opening :: [','].intercalate (texts.map (gap ++ ·)) ++ gap ++ [closing]

namespace Tree

mutual

/-- The text of a tree in a style. -/
def chars (style : Style) : Tree → List Char
  | null => ['n', 'u', 'l', 'l']
  | bool true => ['t', 'r', 'u', 'e']
  | bool false => ['f', 'a', 'l', 's', 'e']
  | int value => integerChars style value.toInt
  | decimal units scale => decimalChars style units.toInt scale.toNat
  | string text => Text.quoted text
  | array items => enclose style.gap '[' ']' (itemTexts style items)
  | object members =>
      let texts := memberTexts style members
      enclose style.gap '\x7b' '\x7d' (if style.reversed then texts.reverse else texts)

/-- The texts of items. -/
def itemTexts (style : Style) : List Tree → List (List Char)
  | [] => []
  | item :: rest => chars style item :: itemTexts style rest

/-- The texts of members, in the order given. -/
def memberTexts (style : Style) : List (String × Tree) → List (List Char)
  | [] => []
  | (key, tree) :: rest =>
      (Text.quoted key ++ style.gap ++ ':' :: style.gap ++ chars style tree)
        :: memberTexts style rest

end

mutual

/-- What a tree means. -/
def toValue : Tree → Value
  | null => .null
  | bool value => .bool value
  | int value => .number (.ofInt value.toInt)
  | decimal units scale => .number (.make units.toInt scale.toNat)
  | string text => .string text
  | array items => .sequence (itemValues items)
  | object members => .mapping (Sorted.collect .last (memberValues members))

/-- What items mean. -/
def itemValues : List Tree → List Value
  | [] => []
  | item :: rest => toValue item :: itemValues rest

/-- What members mean, in the order given. -/
def memberValues : List (String × Tree) → List (String × Value)
  | [] => []
  | (key, tree) :: rest => (key, toValue tree) :: memberValues rest

end

end Tree

/-! ## Documents -/

/-- The document with a payload that is text already. -/
def document (payload : List Char) (createdAt : Timestamp) (key signature : String) : List Char :=
  "\x7b\"payload\":".toList ++ payload ++ ",\"created_at\":".toList ++ createdAt.toValue.chars
    ++ ",\"signer_public_key\":".toList ++ Text.quoted key
    ++ ",\"signature\":".toList ++ Text.quoted signature ++ ['\x7d']

end SignedFacts.Sample
