import SignedFacts.Record.Parse
import SignedFacts.Sample.Tree

/-!
# Golden payloads

Payloads as a client might spell them, each with the canonical text that every
implementation has to find for it.  Signatures made on one machine hold on
another only if these agree to the last octet.
-/

namespace SignedFacts.Sample

/-- A payload with its canonical text. -/
structure Golden where
  /-- What the payload shows. -/
  name : String
  /-- The payload as it comes in. -/
  input : String
  /-- The canonical text it must have. -/
  canonical : String
  deriving DecidableEq, Repr

namespace Golden

/-- The golden payloads. -/
def all : List Golden := [
  { name := "empty payload"
    input := "\x7b\x7d"
    canonical := "\x7b\x7d" },
  { name := "keys sorted"
    input := "\x7b\"b\":1,\"a\":2\x7d"
    canonical := "\x7b\"a\":2,\"b\":1\x7d" },
  { name := "whitespace removed"
    input := "\x7b \"a\" : [ 1 ,\n 2 ] ,\t\"b\" : \x7b \x7d \x7d"
    canonical := "\x7b\"a\":[1,2],\"b\":\x7b\x7d\x7d" },
  { name := "nested objects sorted, arrays kept in order"
    input := "\x7b\"z\":\x7b\"y\":[3,\x7b\"b\":true,\"a\":null\x7d],\"x\":\"-\"\x7d,\"a\":\"x\"\x7d"
    canonical :=
      "\x7b\"a\":\"x\",\"z\":\x7b\"x\":\"-\",\"y\":[3,\x7b\"a\":null,\"b\":true\x7d]\x7d\x7d" },
  { name := "number spellings"
    input := "\x7b\"n\":[1.0,10e-1,1E0,-0,0.50,1e3,-2.5e-3,100,2.5E+2]\x7d"
    canonical := "\x7b\"n\":[1,1,1,0,0.5,1000,-0.0025,100,250]\x7d" },
  { name := "integers beyond 64 bits kept exact"
    input := "\x7b\"big\":123456789012345678901234567890,\"neg\":-18446744073709551617\x7d"
    canonical := "\x7b\"big\":123456789012345678901234567890,\"neg\":-18446744073709551617\x7d" },
  { name := "string escapes minimal"
    input := "\x7b\"s\":\"tab\\there \\\"q\\\" \\\\ \\u0001 \\u00e9 \\/ \\u001F\"\x7d"
    canonical := "\x7b\"s\":\"tab\\there \\\"q\\\" \\\\ \\u0001 é / \\u001f\"\x7d" },
  { name := "keys ordered by byte value"
    input := "\x7b\"é\":1,\"z\":2,\"Z\":3,\"\":4\x7d"
    canonical := "\x7b\"\":4,\"Z\":3,\"z\":2,\"é\":1\x7d" },
  { name := "literals"
    input := "\x7b\"t\":true,\"f\":false,\"n\":null\x7d"
    canonical := "\x7b\"f\":false,\"n\":null,\"t\":true\x7d" }]

/-- The key pair that signs the golden payloads. -/
def keypair : Ed25519.Keypair := ⟨.replicate 32 0x42⟩

/-- The canonical text of a payload that is spelled in some way. -/
def canonicalise (payload : String) : Except RecordError (List Char) :=
  (Record.parse (Utf8.octets (document payload.toList (.logical 1) "k" "s"))).map fun record =>
    record.payload.chars

/-- The canonical text that the payload has. -/
def actual (golden : Golden) : Except RecordError (List Char) := canonicalise golden.input

/-- Whether the payload has the canonical text it must have. -/
def holds (golden : Golden) : Bool := golden.actual.toOption = some golden.canonical.toList

/-- The document of the payload as it comes in, signed. -/
def signed (golden : Golden) : Except RecordError (List Char) :=
  golden.actual.map fun text =>
    document golden.input.toList (.logical 1) (Hex.encode keypair.publicKey)
      (Hex.encode (keypair.sign (Utf8.octets text)))

/-- The id of the canonical text. -/
def id (golden : Golden) : RecordId := .derive (Utf8.encode golden.canonical)

end Golden

/-- A fixed record that pins down how ids are computed. -/
def referenceRecord : Record :=
  .sign Golden.keypair (.logical 1)
    (.ofMembers [("claim", .string "the sky is blue"), ("confidence", .number (.ofInt 95))])

end SignedFacts.Sample
