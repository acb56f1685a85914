import SignedFacts.Hash.Blake3
import SignedFacts.Octets.Hex
import SignedFacts.Octets.Utf8
import SignedFacts.Text.Literal

/-!
# Record ids

The id of a record is the hash of its canonical payload behind a fixed
marker.  Ids are ordered octet by octet.
-/

namespace SignedFacts

/-- The content address of a record. -/
structure RecordId where
  /-- The octets. -/
  octets : Vector UInt8 32
  deriving DecidableEq

namespace RecordId

instance : Ord RecordId := ⟨compareOn RecordId.octets⟩

instance : Std.TransOrd RecordId := inferInstanceAs (Std.TransCmp (compareOn RecordId.octets))

instance : Std.LawfulEqOrd RecordId where
  compare_self := Std.ReflOrd.compare_self (α := Vector UInt8 32)
  eq_of_compare {a b} same := by
    cases a
    cases b
    exact congrArg RecordId.mk (Std.LawfulEqOrd.eq_of_compare (α := Vector UInt8 32) same)

/-- The marker in front of a payload that is hashed to an id. -/
def marker : List UInt8 := Utf8.encode "truth-kernel/record-id/v1"

/-- The id of a canonical payload. -/
def derive (payload : List UInt8) : RecordId := ⟨Blake3.hash (marker ++ payload)⟩

/-- The hexadecimal text of an id. -/
def toHex (id : RecordId) : String := Hex.encode id.octets.toList

/-- The id that a hexadecimal text stands for. -/
def ofHex (text : String) : Except Hex.DecodeError RecordId :=
  match Hex.decode (Utf8.encode text) with
  | .error e => .error e
  | .ok octets =>
      if exact : octets.length = 32 then .ok ⟨⟨octets.toArray, by simpa using exact⟩⟩
      else .error .wrongLength

/-- The first sixteen digits of an id. -/
def short (id : RecordId) : String := String.ofList ((Hex.digits id.octets.toList).take 16)

/-- An id for people who look inside. -/
def shown (id : RecordId) : String := s!"RecordId({id.short})"

end RecordId

/-- An error of hexadecimal text in words.  An octet that is no digit is shown
as the character of its number. -/
def Hex.DecodeError.message : Hex.DecodeError → String
  | .oddLength => "Odd number of digits"
  | .badDigit found position =>
      s!"Invalid character {Text.charLiteral (Char.ofUInt8 found)} at position {position}"
  | .wrongLength => "Invalid string length"

end SignedFacts
