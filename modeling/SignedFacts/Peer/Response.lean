import SignedFacts.Json.Skip
import SignedFacts.Octets.Utf8
import SignedFacts.Peer.Error
import SignedFacts.Record.Basic

/-!
# Answers of peers

A peer answers with a JSON list of documents.  `split` cuts the list into the
texts of its elements and looks into none of them, so a bad document leaves its
neighbours alone.  `join` writes such a list, and `ofRecords` writes the list of
records that this side serves.

Splitting works on octets, each taken for the character of its number.  Only
the text of an element has to be UTF-8.
-/

namespace SignedFacts.Response

open SignedFacts.Json (Cursor ReadError)

/-! ## Where answers are found -/

/-- The URL of a peer and the path of its records joined with one slash. -/
def recordsUrl (peer path : String) : String :=
  let base := (peer.toList.reverse.dropWhile (· = '/')).reverse
  let path := path.toList.dropWhile (· = '/')
  String.ofList (if path.isEmpty then base else base ++ '/' :: path)

/-! ## Splitting -/

/-- Octets as the characters of their numbers. -/
def view (octets : List UInt8) : List Char := octets.map Char.ofUInt8

/-- In the view every character stands for one octet. -/
def octetSize (_ : Char) : Nat := 1

/-- The text of octets that were viewed as characters. -/
def unview (characters : List Char) : Except ReadError (List Char) :=
  match Utf8.decode (characters.map fun c => UInt8.ofNat c.toNat) with
  | .ok text => .ok text
  | .error _ => .error .badCodePoint

/-- Passes over the element at a place and gives back its text and the place
behind it. -/
def element (bound : Nat) (cursor : Cursor) : Except ReadError (String × Cursor) := do
  let begin := cursor.skipSpace
  let behind ← begin.skipValue octetSize bound bound
  let text ← unview (begin.ahead.take (behind.position - begin.position))
  .ok (String.ofList text, behind)

/-- The texts of the elements from a place on, and the text behind the list.
`done` holds those before, last first. -/
def elements : (bound : Nat) → (done : List String) → Cursor →
    Except ReadError (List String × List Char)
  | 0, _, _ => .error .endInList
  | bound + 1, done, cursor => do
      let (text, cursor) ← element (bound + 1) cursor
      match cursor.skipSpace with
      | ⟨_, []⟩ => .error .endInList
      | ⟨_, ']' :: rest⟩ => .ok ((text :: done).reverse, rest)
      | ⟨position, ',' :: rest⟩ =>
          match Json.skipSpace rest with
          | [] => .error .endInValue
          | ']' :: _ => .error .trailingComma
          | _ => elements bound (text :: done) ⟨position + 1, rest⟩
      | _ => .error .itemEndExpected

/-- The error for an answer that is no list.  A string is shown as text, if it
is text. -/
def notList (characters : List Char) : ReadError :=
  let expected := "a sequence"
  match characters with
  | '"' :: rest =>
      match Json.scanString octetSize [] rest with
      | .error cause => cause
      | .ok (_, behind) =>
          match unview (rest.take (rest.length - behind.length)) with
          | .error cause => cause
          | .ok text => Json.typeError Char.utf8Size expected ('"' :: text)
  | characters => Json.typeError octetSize expected characters

/-- The texts of the elements of an answer. -/
def elementsOf (body : List UInt8) : Except ReadError (List String) := do
  let characters := view body
  let (texts, behind) ←
    match Json.skipSpace characters with
    | '[' :: rest =>
        match Json.skipSpace rest with
        | [] => .error .endInList
        | ']' :: behind => .ok ([], behind)
        | _ => elements (body.length + 1) [] ⟨0, rest⟩
    | characters => .error (notList characters)
  if (Json.skipSpace behind).isEmpty then .ok texts else .error .trailingCharacters

/-- Cuts an answer into at most `limit` documents. -/
def split (body : List UInt8) (limit : Nat) : Except RoundError (List String) :=
  match elementsOf body with
  | .error cause => .error (.malformedResponse (.reading cause))
  | .ok documents =>
      if limit < documents.length then .error (.oversized limit documents.length)
      else .ok documents

/-! ## Joining -/

/-- Texts after the first, each behind a comma. -/
def joinRest : List (List Char) → List Char
  | [] => [']']
  | text :: rest => ',' :: text ++ joinRest rest

/-- The list of texts. -/
def join : List (List Char) → List Char
  | [] => ['[', ']']
  | text :: rest => '[' :: text ++ joinRest rest

/-- The answer that serves records. -/
def ofRecords (records : List Record) : List Char := join (records.map Record.chars)

end SignedFacts.Response
