import SignedFacts.Octets.Base64
import SignedFacts.Octets.Hex
import SignedFacts.Octets.Utf8

/-!
# Keys and signatures as text

A record carries its key and its signature as text, and keeps the text as it
is.  The octets behind it are read when they are needed: as hexadecimal digits
if the text is that, and else as base64.
-/

namespace SignedFacts

/-- The text of a key or of a signature. -/
structure KeyText where
  /-- The text. -/
  text : String
  deriving DecidableEq, Repr

namespace KeyText

/-- The hexadecimal text of octets. -/
def ofHex (octets : List UInt8) : KeyText := ⟨Hex.encode octets⟩

/-- The base64 text of octets. -/
def ofBase64 (octets : List UInt8) : KeyText := ⟨Base64.encode octets⟩

/-- The octets that a text stands for.  The empty text stands for none. -/
def decode? (key : KeyText) : Option (List UInt8) :=
  if key.text.isEmpty then none
  else
    match Hex.decode (Utf8.encode key.text) with
    | .ok octets => some octets
    | .error _ => Base64.decode key.text.toList

/-- What is said of a text that stands for no octets. -/
def undecodable : String := "key material is neither hex nor base64"

/-- The text by its first sixteen characters. -/
def shown (key : KeyText) : String :=
  s!"KeyMaterial({String.ofList (key.text.toList.take 16)})"

end KeyText

end SignedFacts
