import SignedFacts.Json.Scan

/-!
# Passing over JSON values

`skipValue` passes over a value without making anything of it.  It knows no
nesting limit, compares no keys and looks at no surrogates.  A number that is
cut off is a bad number here, and a comma before the end is told by what is
missing behind it.

A `Cursor` counts the characters passed over, so the text of a value can be cut
out afterwards.
-/

namespace SignedFacts.Json

/-- A place in a text. -/
structure Cursor where
  /-- The number of characters before the place. -/
  position : Nat
  /-- The text from the place on. -/
  ahead : List Char

namespace Cursor

/-- The place `count` characters on, where the text behind them is known. -/
def past (cursor : Cursor) (count : Nat) (ahead : List Char) : Cursor :=
  ⟨cursor.position + count, ahead⟩

/-- The place behind the blanks. -/
def skipSpace (cursor : Cursor) : Cursor :=
  ⟨cursor.position + (cursor.ahead.takeWhile isSpace).length, cursor.ahead.dropWhile isSpace⟩

/-- The place behind the letters of a word, which must follow at once. -/
def skipWord (letters : List Char) (cursor : Cursor) : Except ReadError Cursor :=
  (scanWord letters cursor.ahead).map fun rest => cursor.past letters.length rest

/-- The place behind a number.  The numeral holds every character of it. -/
def skipNumeral (cursor : Cursor) : Except ReadError Cursor :=
  (scanNumeral .badNumber cursor.ahead).map fun (n, rest) => cursor.past n.chars.length rest

/-- The place behind the closing quote of a string, from a place inside. -/
def skipString (size : Char → Nat) (position : Nat) : List Char → Except ReadError Cursor
  | [] => .error .endInString
  | c :: rest =>
      if c = '"' then .ok ⟨position + 1, rest⟩
      else if c = '\\' then
        match rest with
        | [] => .error .endInString
        | 'u' :: p :: q :: r :: s :: rest =>
            if (unit? p q r s).isSome then skipString size (position + 6) rest
            else .error .badEscape
        | 'u' :: rest => .error (shortEscape size rest)
        | e :: rest =>
            if (escapeChar? e).isSome then skipString size (position + 2) rest
            else .error .badEscape
      else if c.toNat < 0x20 then .error .controlCharacter
      else skipString size (position + 1) rest

/-- The place behind a value that is no container. -/
def skipScalar (size : Char → Nat) (cursor : Cursor) : Except ReadError Cursor :=
  match cursor.ahead with
  | [] => .error .endInValue
  | c :: rest =>
      if c = 'n' then (cursor.past 1 rest).skipWord ['u', 'l', 'l']
      else if c = 't' then (cursor.past 1 rest).skipWord ['r', 'u', 'e']
      else if c = 'f' then (cursor.past 1 rest).skipWord ['a', 'l', 's', 'e']
      else if c = '"' then skipString size (cursor.position + 1) rest
      else if c = '-' ∨ c.isDigit then cursor.skipNumeral
      else .error .valueExpected

/-- The place behind a list, from the front of an item. -/
def skipItems (value : Cursor → Except ReadError Cursor) :
    (bound : Nat) → Cursor → Except ReadError Cursor
  | 0, _ => .error .endInList
  | bound + 1, cursor => do
      let cursor := (← value cursor).skipSpace
      match cursor.ahead with
      | [] => .error .endInList
      | ']' :: rest => .ok (cursor.past 1 rest)
      | ',' :: rest => skipItems value bound (cursor.past 1 rest)
      | _ => .error .itemEndExpected

/-- The place behind the colon after a key, from the front of the key. -/
def skipKey (size : Char → Nat) (cursor : Cursor) : Except ReadError Cursor :=
  match cursor.skipSpace with
  | ⟨_, []⟩ => .error .endInObject
  | ⟨position, '"' :: rest⟩ => do
      let cursor := (← skipString size (position + 1) rest).skipSpace
      match cursor.ahead with
      | [] => .error .endInObject
      | ':' :: rest => .ok (cursor.past 1 rest)
      | _ => .error .colonExpected
  | _ => .error .keyNotString

/-- The place behind an object, from the front of a key. -/
def skipMembers (size : Char → Nat) (value : Cursor → Except ReadError Cursor) :
    (bound : Nat) → Cursor → Except ReadError Cursor
  | 0, _ => .error .endInObject
  | bound + 1, cursor => do
      let cursor := (← value (← skipKey size cursor)).skipSpace
      match cursor.ahead with
      | [] => .error .endInObject
      | '\x7d' :: rest => .ok (cursor.past 1 rest)
      | ',' :: rest => skipMembers size value bound (cursor.past 1 rest)
      | _ => .error .memberEndExpected

/-- The place behind the items of a list, from behind its bracket. -/
def skipArray (value : Cursor → Except ReadError Cursor) (bound : Nat) (cursor : Cursor) :
    Except ReadError Cursor :=
  match cursor.skipSpace with
  | ⟨_, []⟩ => .error .endInList
  | ⟨position, ']' :: rest⟩ => .ok ⟨position + 1, rest⟩
  | cursor => skipItems value bound cursor

/-- The place behind the members of an object, from behind its brace. -/
def skipObject (size : Char → Nat) (value : Cursor → Except ReadError Cursor) (bound : Nat)
    (cursor : Cursor) : Except ReadError Cursor :=
  match cursor.skipSpace with
  | ⟨_, []⟩ => .error .endInObject
  | ⟨position, '\x7d' :: rest⟩ => .ok ⟨position + 1, rest⟩
  | cursor => skipMembers size value bound cursor

/-- The place behind a value, blanks before it passed over too.  At most
`depth` containers may be open at once, and as each takes a character, the
length of the text is no limit. -/
def skipValue (size : Char → Nat) (bound : Nat) :
    (depth : Nat) → Cursor → Except ReadError Cursor
  | 0, cursor => cursor.skipSpace.skipScalar size
  | depth + 1, cursor =>
      match cursor.skipSpace with
      | ⟨position, '[' :: rest⟩ =>
          skipArray (skipValue size bound depth) bound ⟨position + 1, rest⟩
      | ⟨position, '\x7b' :: rest⟩ =>
          skipObject size (skipValue size bound depth) bound ⟨position + 1, rest⟩
      | cursor => cursor.skipScalar size

end Cursor

end SignedFacts.Json
