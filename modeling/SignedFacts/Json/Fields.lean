import SignedFacts.Json.Read
import SignedFacts.Json.Skip
import SignedFacts.Number.Binary64

/-!
# Reading into fields

A structure with named fields is read straight from the text, field by field,
with a state that the fields change.  It is written as an object or as a list in
the order of its fields, whose tail may be missing.

A reader of a field gets the state and the text where the value is due and
gives back both.  The reader of the members of an object is asked as soon as a
key is read, before its colon, so a key that does not belong is told first.
-/

namespace SignedFacts.Json

/-- Changes a state by what stands at the front of a text. -/
abbrev FieldReader (σ : Type) := σ → List Char → Except ReadError (σ × List Char)

/-! ## Scalars -/

/-- Reads an unsigned integer of 64 bits. `expected` names it in messages. -/
def readCount (expected : String) (text : List Char) : Except ReadError (Nat × List Char) :=
  let text := skipSpace text
  let isNumber :=
    match text with
    | [] => false
    | c :: _ => c = '-' || c.isDigit
  if isNumber then do
    let (n, rest) ← scanNumeral .endInValue text
    let size := Nat.ofDigitChars 10 n.whole 0
    let plain := n.fraction.isNone && n.exponent.isNone
    if plain ∧ ¬ n.negative ∧ size < UInt64.size then .ok (size, rest)
    else if plain ∧ n.negative ∧ 0 < size ∧ size ≤ Nat.pow 2 63 then
      .error (.wrongValue (.integer (-size)) expected)
    else
      match Binary64.ofNumeral? n with
      | none => .error .outOfRange
      | some x => .error (.wrongType (.fraction x.text) expected)
  else .error (typeError Char.utf8Size expected text)

/-- Reads a string. -/
def readString (text : List Char) : Except ReadError (String × List Char) :=
  (readStringFor "a string" text).map fun (s, rest) => (String.ofList s, rest)

/-- Passes over a value. -/
def skipField (bound : Nat) (text : List Char) : Except ReadError (List Char) :=
  ((⟨0, text⟩ : Cursor).skipValue Char.utf8Size bound bound).map (·.ahead)

/-! ## Structures -/

/-- Takes the end of a list off the front where no item may follow. -/
def closeArray (text : List Char) : Except ReadError (List Char) :=
  match skipSpace text with
  | [] => .error .endInList
  | ']' :: rest => .ok rest
  | ',' :: rest =>
      match skipSpace rest with
      | ']' :: _ => .error .trailingComma
      | _ => .error .trailingCharacters
  | _ => .error .trailingCharacters

/-- Reads the items of a list into fields in their order, from behind the first
item. -/
def readMoreInOrder {σ : Type} : List (FieldReader σ) → FieldReader σ
  | [], state, text => (closeArray text).map fun rest => (state, rest)
  | reader :: readers, state, text =>
      match skipSpace text with
      | [] => .error .endInList
      | ']' :: rest => .ok (state, rest)
      | ',' :: rest =>
          match skipSpace rest with
          | [] => .error .endInValue
          | ']' :: _ => .error .trailingComma
          | rest => do
              let (state, rest) ← reader state rest
              readMoreInOrder readers state rest
      | _ => .error .itemEndExpected

/-- Reads the items of a list into fields in their order, from behind the
bracket. -/
def readInOrder {σ : Type} (readers : List (FieldReader σ)) (state : σ) (text : List Char) :
    Except ReadError (σ × List Char) :=
  match readers with
  | [] => readMoreInOrder [] state text
  | reader :: readers =>
      match skipSpace text with
      | [] => .error .endInList
      | ']' :: rest => .ok (state, rest)
      | text => do
          let (state, rest) ← reader state text
          readMoreInOrder readers state rest

/-- Reads the members of an object, from the front of a key. -/
def readByName {σ : Type} (member : String → FieldReader σ) : (bound : Nat) → FieldReader σ
  | 0, _, _ => .error .endInObject
  | bound + 1, state, text => do
      match text with
      | '"' :: rest =>
          let (key, rest) ← scanString Char.utf8Size [] rest
          let (state, rest) ← member (String.ofList key) state rest
          match skipSpace rest with
          | [] => .error .endInObject
          | '\x7d' :: rest => .ok (state, rest)
          | ',' :: rest =>
              match skipSpace rest with
              | [] => .error .endInValue
              | '\x7d' :: _ => .error .trailingComma
              | rest => readByName member bound state rest
          | _ => .error .memberEndExpected
      | _ => .error .keyNotString

/-- Reads a structure.  `expected` names it in messages, `member` reads the
value of a key from in front of the colon, and `inOrder` reads the items of a
list. -/
def readFields {σ : Type} (expected : String) (member : String → FieldReader σ)
    (inOrder : List (FieldReader σ)) (bound : Nat) (state : σ) (text : List Char) :
    Except ReadError (σ × List Char) :=
  match skipSpace text with
  | '[' :: rest => readInOrder inOrder state rest
  | '\x7b' :: rest =>
      match skipSpace rest with
      | [] => .error .endInObject
      | '\x7d' :: rest => .ok (state, rest)
      | rest => readByName member bound state rest
  | text => .error (typeError Char.utf8Size expected text)

end SignedFacts.Json
