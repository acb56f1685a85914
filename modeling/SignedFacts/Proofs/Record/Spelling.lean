import SignedFacts.Proofs.Json.Depth
import SignedFacts.Proofs.Record.Acceptance
import SignedFacts.Proofs.Record.Rearranged

/-!
# Spellings of one document

Two texts may spell trees that are rearrangements of each other: blanks, escapes
and the order of members are left to the writer.  Such texts are read as the same
record or refused for the same reason (`parse_respelled`).

Two documents are respelled at the end, one that is a record and one with several
faults.
-/

namespace SignedFacts.Record

section Texts

variable {text : List Char} {json : Json}

/-- What is read from a text that spells a tree without repeated or reserved
keys. -/
theorem ofText_of_spells {keep : Sorted.Occurrence} (padded : Json.SpellsPadded text json)
    (unique : json.UniqueKeys) (plain : json.AvoidsReserved) :
    ofText keep text
      = if json.NestsWithin Json.maxOpen then ofJson keep json
        else .error (.malformed (.reading .tooDeep)) := by
  have guarded := Json.readGuarded_of_spells padded unique
  rw [ofText]
  split at guarded
  next nests =>
    rw [guarded, Json.readPlain_of_readGuarded guarded plain, if_pos nests]
  next deep =>
    rw [guarded, if_neg deep]

end Texts

/-- Two texts that spell one document are read as the same record, or refused
with the same error. -/
theorem parse_respelled {text other : List Char} {json arranged : Json}
    (padded : Json.SpellsPadded text json) (paddedToo : Json.SpellsPadded other arranged)
    (same : json.Rearranged arranged) (unique : json.UniqueKeys) (plain : json.AvoidsReserved) :
    parse (Utf8.octets text) = parse (Utf8.octets other) := by
  rw [parse_octets, parse_octets, ofText_of_spells padded unique plain,
    ofText_of_spells paddedToo (same.uniqueKeys_iff.1 unique) (same.avoidsReserved_iff.1 plain)]
  simp only [same.nestsWithin_iff, @ofJson_rearranged .last .last _ _ same unique]

/-! ## Respelled documents -/

/-- The members of a document with some payload, time and key, the payload first. -/
def membersWith (payload createdAt signerKey : Json) : List (String × Json) :=
  [("payload", payload), ("created_at", createdAt), ("signer_public_key", signerKey),
    ("signature", .string "s")]

/-- The members of a document may be turned round, whatever is done inside the payload. -/
theorem rearranged_membersWith {payload other : Json} (same : payload.Rearranged other)
    (createdAt signerKey : Json) :
    (Json.object (membersWith payload createdAt signerKey)).Rearranged
      (.object (membersWith other createdAt signerKey).reverse) :=
  .object (.cons same (.of_forall fun member _ => .refl member.2)) (List.reverse_perm _).symm

/-- A payload with an object inside a list. -/
def listPayload : Json :=
  .object [
    ("a/b", .array [.object [("x", .number ⟨false, ['1'], some ['5', '0'], none⟩), ("y", .null)],
      .string "é😀"]),
    ("c", .bool true)]

/-- The same payload with the members of both objects in the opposite order. -/
def turnedPayload : Json :=
  .object [
    ("c", .bool true),
    ("a/b", .array [.object [("y", .null), ("x", .number ⟨false, ['1'], some ['5', '0'], none⟩)],
      .string "é😀"])]

theorem rearranged_turnedPayload : listPayload.Rearranged turnedPayload :=
  .object (.cons (.array (.cons (.of_perm (.swap ..)) (.cons (.refl _) .nil)))
    (.cons (.refl _) .nil)) (.swap ..)

/-- A document with this payload, without blanks and without escapes. -/
def tightDocument : String :=
  "\x7b\"payload\":\x7b\"a/b\":[\x7b\"x\":1.50,\"y\":null\x7d,\"é😀\"],\"c\":true\x7d,"
    ++ "\"created_at\":\"t\",\"signer_public_key\":\"k\",\"signature\":\"s\"\x7d"

/-- The same document turned round, with blanks and escapes. -/
def turnedDocument : String :=
  " \x7b\"signature\": \"\\u0073\",\r\n\"signer_public_key\": \"k\","
    ++ "\n\"created_at\"\t: \"\\u0074\", \"p\\u0061yload\": \x7b\"c\": true, \"a\\/b\": ["
    ++ "\x7b\"y\":null,\"x\":1.50\x7d ,\"\\u00E9\\uD83D\\uDE00\"] \x7d \x7d\n"

/-- The record of both. -/
def listRecord : Record :=
  ⟨⟨[("a/b", .sequence [.mapping [("x", .number (.make 15 1)), ("y", .null)], .string "é😀"]),
    ("c", .bool true)], by decide⟩, .label "t", ⟨"k"⟩, ⟨"s"⟩⟩

/-- The members of a payload with two numbers that grow too much. -/
def grownMembers : List (String × Json) :=
  [("m", .number ⟨false, ['1'], none, some ⟨.plus, ['2', '0', '0', '0']⟩⟩),
    ("n", .number ⟨false, ['1'], none, some ⟨.plus, ['3', '0', '0', '0']⟩⟩)]

/-- A number where a key should stand. -/
def seven : Json := .number ⟨false, ['7'], none, none⟩

/-- A document with such a payload, an empty label and a number for a key. -/
def faultyDocument : String :=
  "\x7b\"payload\":\x7b\"m\":1e2000,\"n\":1e3000\x7d,\"created_at\":\"\","
    ++ "\"signer_public_key\":7,\"signature\":\"s\"\x7d"

/-- The same document turned round, so that all faults come in the opposite order. -/
def turnedFaultyDocument : String :=
  "\x7b\"signature\":\"\\u0073\", \"signer_public_key\":7, \"created_at\":\"\","
    ++ "\"payload\":\x7b\"\\u006e\":1E+3000 ,\"\\u006D\":1E+2000\x7d\x7d"

theorem parse_respelled_turnedDocument :
    parse (Utf8.encode tightDocument) = .ok listRecord
      ∧ parse (Utf8.encode turnedDocument) = .ok listRecord
      ∧ parse (Utf8.encode faultyDocument)
        = .error (.malformed (.value (.number (.tooLong "1e+2000"))))
      ∧ parse (Utf8.encode turnedFaultyDocument)
        = .error (.malformed (.value (.number (.tooLong "1e+2000")))) := by
  have tight : Json.SpellsPadded tightDocument.toList
      (.object (membersWith listPayload (.string "t") (.string "k"))) :=
    (Json.spells_of_found (by decide +kernel)).1
  have turned : Json.SpellsPadded turnedDocument.toList
      (.object (membersWith turnedPayload (.string "t") (.string "k")).reverse) :=
    (Json.spells_of_found (by decide +kernel)).1
  have faulty : Json.SpellsPadded faultyDocument.toList
      (.object (membersWith (.object grownMembers) (.string "") seven)) :=
    (Json.spells_of_found (by decide +kernel)).1
  have turnedFaulty : Json.SpellsPadded turnedFaultyDocument.toList
      (.object (membersWith (.object grownMembers.reverse) (.string "") seven).reverse) :=
    (Json.spells_of_found (by decide +kernel)).1
  have read : parse (Utf8.encode tightDocument) = .ok listRecord := by decide +kernel
  have refused : parse (Utf8.encode faultyDocument)
      = .error (.malformed (.value (.number (.tooLong "1e+2000")))) := by decide +kernel
  have sameRead := parse_respelled tight turned
    (rearranged_membersWith rearranged_turnedPayload _ _) (by decide) (by decide)
  have sameRefused := parse_respelled faulty turnedFaulty
    (rearranged_membersWith (.of_perm (List.reverse_perm _).symm) _ _) (by decide) (by decide)
  exact ⟨read, sameRead.symm.trans read, refused, sameRefused.symm.trans refused⟩

end SignedFacts.Record
