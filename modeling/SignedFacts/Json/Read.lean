import SignedFacts.Json.Scan

/-!
# Reading JSON texts

`readValue` reads one value off the front of a text.  It recurses on the number
of containers that may still be opened, so the nesting limit is the recursion
itself.  Items and members are read by loops that are given the reader of one
value.  A loop takes at most `bound` turns.  Each turn takes a character at
least, so the length of the text is enough.

Two sets of rules are in use.  The guard refuses a repeated key, as soon as the
second value with it is read, and knows no other rule.  The plain rules let
repeated keys pass but give a meaning to objects whose first key is reserved: one
key stands for a number and the other for a text that is read in its place.
-/

namespace SignedFacts.Json

/-! ## Rules -/

/-- The first key of an object that stands for a number. -/
def numberKey : String := "$serde_json::private::Number"

/-- The first key of an object that stands for another text. -/
def textKey : String := "$serde_json::private::RawValue"

/-- What a reader allows. -/
structure Rules where
  /-- Whether a repeated key is refused. -/
  guardsKeys : Bool
  /-- How the text behind a reserved key is read, if reserved keys have a
  meaning. -/
  embedded? : Option (List Char → Except ReadError Json)

/-- The number of containers that may be open at once. -/
def maxOpen : Nat := 127

/-! ## The parts of an object -/

/-- Takes the colon after a key off the front. -/
def readColon (text : List Char) : Except ReadError (List Char) :=
  match skipSpace text with
  | [] => .error .endInObject
  | ':' :: rest => .ok rest
  | _ => .error .colonExpected

/-- Takes a key, up to and with its colon, off the front. -/
def readKey (text : List Char) : Except ReadError (String × List Char) := do
  match text with
  | '"' :: rest =>
      let (key, rest) ← scanString Char.utf8Size [] rest
      let rest ← readColon rest
      .ok (String.ofList key, rest)
  | _ => .error .keyNotString

/-- Takes a string off the front where nothing else will do. -/
def readStringFor (expected : String) (text : List Char) :
    Except ReadError (List Char × List Char) :=
  match skipSpace text with
  | '"' :: rest => scanString Char.utf8Size [] rest
  | text => .error (typeError Char.utf8Size expected text)

/-- Takes the end of an object off the front where no member may follow. -/
def closeObject (text : List Char) : Except ReadError (List Char) :=
  match skipSpace text with
  | [] => .error .endInObject
  | '\x7d' :: rest => .ok rest
  | ',' :: _ => .error .trailingComma
  | _ => .error .trailingCharacters

/-- The number that a text spells with nothing around it. -/
def readNumberText (text : List Char) : Except ReadError Json := do
  let (n, rest) ← scanNumeral .endInValue text
  if rest.isEmpty then .ok (.number n.explicit) else .error .badNumber

/-- The rest of an object whose first key is reserved, from behind the colon. -/
def readReserved (embedded : List Char → Except ReadError Json) (key : String)
    (text : List Char) : Except ReadError (Json × List Char) := do
  if key = numberKey then
    let (spelled, text) ← readStringFor "string containing a number" text
    let number ← readNumberText spelled
    let text ← closeObject text
    .ok (number, text)
  else
    let (spelled, text) ← readStringFor "raw value" text
    let value ← embedded spelled
    let text ← closeObject text
    .ok (value, text)

/-- Whether a key is reserved. -/
def isReserved (key : String) : Bool := key = numberKey || key = textKey

/-! ## Loops -/

/-- Reads items up to the end of the list. `done` holds those before, last
first. -/
def readItems (value : List Char → Except ReadError (Json × List Char)) :
    (bound : Nat) → (done : List Json) → List Char → Except ReadError (Json × List Char)
  | 0, _, _ => .error .endInList
  | bound + 1, done, text => do
      let (item, text) ← value text
      match skipSpace text with
      | [] => .error .endInList
      | ']' :: rest => .ok (.array (item :: done).reverse, rest)
      | ',' :: rest =>
          match skipSpace rest with
          | ']' :: _ => .error .trailingComma
          | _ => readItems value bound (item :: done) rest
      | _ => .error .itemEndExpected

/-- Reads members up to the end of the object, from the quote of a key. `done`
holds those before, last first. -/
def readMembers (guardsKeys : Bool)
    (value : List Char → Except ReadError (Json × List Char)) :
    (bound : Nat) → (done : List (String × Json)) → List Char →
      Except ReadError (Json × List Char)
  | 0, _, _ => .error .endInObject
  | bound + 1, done, text => do
      let (key, text) ← readKey text
      let (item, text) ← value text
      if guardsKeys && done.any (·.1 = key) then .error (.repeatedKey key)
      else
        match skipSpace text with
        | [] => .error .endInObject
        | '\x7d' :: rest => .ok (.object ((key, item) :: done).reverse, rest)
        | ',' :: rest =>
            match skipSpace rest with
            | [] => .error .endInValue
            | '\x7d' :: _ => .error .trailingComma
            | rest => readMembers guardsKeys value bound ((key, item) :: done) rest
        | _ => .error .memberEndExpected

/-- The rest of a list, from behind the bracket. -/
def readArray (value : List Char → Except ReadError (Json × List Char)) (bound : Nat)
    (text : List Char) : Except ReadError (Json × List Char) :=
  match skipSpace text with
  | [] => .error .endInList
  | ']' :: rest => .ok (.array [], rest)
  | text => readItems value bound [] text

/-- The rest of an object, from behind the brace. -/
def readObject (rules : Rules) (value : List Char → Except ReadError (Json × List Char))
    (bound : Nat) (text : List Char) : Except ReadError (Json × List Char) :=
  match skipSpace text with
  | [] => .error .endInObject
  | '\x7d' :: rest => .ok (.object [], rest)
  | text =>
      match rules.embedded? with
      | none => readMembers rules.guardsKeys value bound [] text
      | some embedded =>
          match readKey text with
          | .error e => .error e
          | .ok (key, rest) =>
              if isReserved key then readReserved embedded key rest
              else readMembers rules.guardsKeys value bound [] text

/-! ## Values -/

/-- Reads a value that is no container. -/
def readScalar (text : List Char) : Except ReadError (Json × List Char) :=
  match text with
  | [] => .error .endInValue
  | c :: rest =>
      if c = 'n' then (scanWord ['u', 'l', 'l'] rest).map fun rest => (.null, rest)
      else if c = 't' then (scanWord ['r', 'u', 'e'] rest).map fun rest => (.bool true, rest)
      else if c = 'f' then
        (scanWord ['a', 'l', 's', 'e'] rest).map fun rest => (.bool false, rest)
      else if c = '"' then
        (scanString Char.utf8Size [] rest).map fun (s, rest) => (.string (String.ofList s), rest)
      else if c = '-' ∨ c.isDigit then
        (scanNumeral .endInValue text).map fun (n, rest) => (.number n.explicit, rest)
      else .error .valueExpected

/-- Reads a value off the front of a text, with at most `depth` containers open
at once. -/
def readValue (rules : Rules) (bound : Nat) :
    (depth : Nat) → List Char → Except ReadError (Json × List Char)
  | 0, text =>
      match skipSpace text with
      | '[' :: _ => .error .tooDeep
      | '\x7b' :: _ => .error .tooDeep
      | text => readScalar text
  | depth + 1, text =>
      match skipSpace text with
      | '[' :: rest => readArray (readValue rules bound depth) bound rest
      | '\x7b' :: rest => readObject rules (readValue rules bound depth) bound rest
      | text => readScalar text

/-- Reads a text that holds one value and nothing else. -/
def readText (rules : Rules) (text : List Char) : Except ReadError Json := do
  let (value, rest) ← readValue rules text.length maxOpen text
  if (skipSpace rest).isEmpty then .ok value else .error .trailingCharacters

/-! ## The two sets of rules -/

/-- The guard. -/
def guardRules : Rules := ⟨true, none⟩

/-- Reads a text by the plain rules, where texts may be embedded in each other
at most `level` deep.  An embedded text is shorter than the one it stands in. -/
def readPlainWithin : (level : Nat) → List Char → Except ReadError Json
  | 0, _ => .error .endInValue
  | level + 1, text => readText ⟨false, some (readPlainWithin level)⟩ text

/-- Reads a text, and refuses repeated keys. -/
def readGuarded (text : List Char) : Except ReadError Json := readText guardRules text

/-- Reads a text by the plain rules. -/
def readPlain (text : List Char) : Except ReadError Json :=
  readPlainWithin (text.length + 1) text

end SignedFacts.Json
