import SignedFacts.Number.Numeral
import SignedFacts.Text.Literal

/-!
# JSON texts

The tree that a JSON text spells, and what can be wrong with a text.  The
members of an object stand in the order of the text, repeated keys included, and
a number keeps its spelling.

An error is the cause alone.  The place in the text where reading ended is not
kept, and the words of an error do not name it.
-/

namespace SignedFacts

/-- The tree that a JSON text spells. -/
inductive Json where
  /-- The word `null`. -/
  | null
  /-- One of the words `true` and `false`. -/
  | bool (value : Bool)
  /-- A number, as it is spelled with an explicit sign in its exponent. -/
  | number (numeral : Numeral)
  /-- A string, unescaped. -/
  | string (text : String)
  /-- A list. -/
  | array (items : List Json)
  /-- An object with its members in the order of the text. -/
  | object (members : List (String × Json))

namespace Json

/-! ## What can be wrong with a text -/

/-- What stands in a text where something else was due. -/
inductive Found where
  /-- The word `null`. -/
  | null
  /-- A truth value. -/
  | bool (value : Bool)
  /-- An integer of 64 bits. -/
  | integer (value : Int)
  /-- A number that is held as a fraction, shown as given. -/
  | fraction (shown : String)
  /-- Any other number. -/
  | number
  /-- A string. -/
  | string (text : String)
  /-- A list. -/
  | sequence
  /-- An object. -/
  | map
  deriving DecidableEq, Repr

/-- What was found, in words. -/
def Found.message : Found → String
  | null => "null"
  | bool value => s!"boolean `{value}`"
  | integer value => s!"integer `{value}`"
  | fraction shown => s!"floating point `{shown}`"
  | number => "number"
  | string text => s!"string {Text.literal text}"
  | sequence => "sequence"
  | map => "map"

/-- Why a text cannot be read. -/
inductive ReadError where
  /-- The text ends where a value is due. -/
  | endInValue
  /-- The text ends inside a list. -/
  | endInList
  /-- The text ends inside an object. -/
  | endInObject
  /-- The text ends inside a string. -/
  | endInString
  /-- No value begins here. -/
  | valueExpected
  /-- One of the three words begins here and is not finished. -/
  | wordExpected
  /-- No colon after a key. -/
  | colonExpected
  /-- Neither a comma nor the end after an item. -/
  | itemEndExpected
  /-- Neither a comma nor the end after a member. -/
  | memberEndExpected
  /-- A comma before the end. -/
  | trailingComma
  /-- A key that is no string. -/
  | keyNotString
  /-- A number without a digit that is due, or with a leading zero. -/
  | badNumber
  /-- A backslash that begins no escape. -/
  | badEscape
  /-- The first half of a surrogate pair without an escape after it. -/
  | halfEscape
  /-- A half of a surrogate pair without the other. -/
  | loneSurrogate
  /-- A control character inside a string. -/
  | controlCharacter
  /-- More containers inside each other than allowed. -/
  | tooDeep
  /-- Something after the end. -/
  | trailingCharacters
  /-- Octets that are not UTF-8. -/
  | badCodePoint
  /-- A number too large to be held. -/
  | outOfRange
  /-- A second member with this key. -/
  | repeatedKey (key : String)
  /-- A second field with this name. -/
  | repeatedField (name : String)
  /-- A field that is not known where only `expected` is. -/
  | unknownField (name expected : String)
  /-- A value of another kind than asked for. -/
  | wrongType (found : Found) (expected : String)
  /-- A value of the right kind that is not allowed. -/
  | wrongValue (found : Found) (expected : String)
  deriving DecidableEq, Repr

/-- The error in words, without the suffix ` at line … column …` that tells the place
in the text where reading ended. -/
def ReadError.message : ReadError → String
  | endInValue => "EOF while parsing a value"
  | endInList => "EOF while parsing a list"
  | endInObject => "EOF while parsing an object"
  | endInString => "EOF while parsing a string"
  | valueExpected => "expected value"
  | wordExpected => "expected ident"
  | colonExpected => "expected `:`"
  | itemEndExpected => "expected `,` or `]`"
  | memberEndExpected => "expected `,` or `\x7d`"
  | trailingComma => "trailing comma"
  | keyNotString => "key must be a string"
  | badNumber => "invalid number"
  | badEscape => "invalid escape"
  | halfEscape => "unexpected end of hex escape"
  | loneSurrogate => "lone leading surrogate in hex escape"
  | controlCharacter => "control character (\\u0000-\\u001F) found while parsing a string"
  | tooDeep => "recursion limit exceeded"
  | trailingCharacters => "trailing characters"
  | badCodePoint => "invalid unicode code point"
  | outOfRange => "number out of range"
  | repeatedKey key => s!"duplicate key `{key}`"
  | repeatedField name => s!"duplicate field `{name}`"
  | unknownField name expected => s!"unknown field `{name}`, expected `{expected}`"
  | wrongType found expected => s!"invalid type: {found.message}, expected {expected}"
  | wrongValue found expected => s!"invalid value: {found.message}, expected {expected}"

end Json

end SignedFacts
