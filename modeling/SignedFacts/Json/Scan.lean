import SignedFacts.Json.Basic
import SignedFacts.Octets.Hex

/-!
# Tokens of a JSON text

Blanks, words, numbers and strings.  Each scanner takes the text from the place
where it stands and gives back what it read and the text behind it.

Where a text ends inside a `\u` escape, what counts is the number of octets that
are left.  So the scanners of strings take the size of a character: its size in
UTF-8 for a text, and one where every character stands for an octet.
-/

namespace SignedFacts.Json

/-! ## Blanks and words -/

/-- Whether a character may stand between tokens. -/
def isSpace (c : Char) : Bool := c = ' ' || c = '\n' || c = '\r' || c = '\t'

/-- The text behind the blanks at its front. -/
def skipSpace (text : List Char) : List Char := text.dropWhile isSpace

/-- The text behind the letters of a word, which must follow at once. -/
def scanWord : (letters : List Char) → List Char → Except ReadError (List Char)
  | [], text => .ok text
  | _ :: _, [] => .error .endInValue
  | letter :: letters, c :: text =>
      if c = letter then scanWord letters text else .error .wordExpected

/-! ## Numbers -/

/-- Takes the digits off the front, of which there must be one.  `atEnd` is the
error where the text ends instead. -/
def scanDigits (atEnd : ReadError) (text : List Char) : Except ReadError (List Char × List Char) :=
  match text with
  | [] => .error atEnd
  | c :: _ =>
      if c.isDigit then .ok (text.takeWhile Char.isDigit, text.dropWhile Char.isDigit)
      else .error .badNumber

/-- Takes the digits before a point off the front.  A zero stands alone. -/
def scanWhole (atEnd : ReadError) (text : List Char) : Except ReadError (List Char × List Char) :=
  match text with
  | '0' :: c :: rest => if c.isDigit then .error .badNumber else .ok (['0'], c :: rest)
  | text => scanDigits atEnd text

/-- Takes a point and the digits behind it off the front, if a point stands
there. -/
def scanFraction (atEnd : ReadError) :
    List Char → Except ReadError (Option (List Char) × List Char)
  | '.' :: rest => (scanDigits atEnd rest).map fun (digits, rest) => (some digits, rest)
  | text => .ok (none, text)

/-- Takes an exponent off the front, if one stands there. -/
def scanExponent (atEnd : ReadError) : List Char → Except ReadError (Option Exponent × List Char)
  | [] => .ok (none, [])
  | c :: rest =>
      if Numeral.isExponentMark c then
        let (sign, rest) := Numeral.takeSign rest
        (scanDigits atEnd rest).map fun (digits, rest) => (some ⟨sign, digits⟩, rest)
      else .ok (none, c :: rest)

/-- Takes a number off the front.  `atEnd` is the error where the text ends
inside it. -/
def scanNumeral (atEnd : ReadError) (text : List Char) :
    Except ReadError (Numeral × List Char) := do
  let (negative, text) := Numeral.takeMinus text
  let (whole, text) ← scanWhole atEnd text
  let (fraction, text) ← scanFraction atEnd text
  let (exponent, text) ← scanExponent atEnd text
  .ok (⟨negative, whole, fraction, exponent⟩, text)

/-! ## Strings -/

/-- The number that four digits of either case spell. -/
def unit? (a b c d : Char) : Option Nat := do
  let digit? (x : Char) : Option Nat :=
    if x.toNat < 128 then (Hex.halfOctet? (UInt8.ofNat x.toNat)).map UInt8.toNat else none
  some ((((← digit? a) * 16 + (← digit? b)) * 16 + (← digit? c)) * 16 + (← digit? d))

/-- Whether a unit is the first half of a surrogate pair. -/
def isHighUnit (unit : Nat) : Bool := 0xD800 ≤ unit && unit ≤ 0xDBFF

/-- Whether a unit is the second half of a surrogate pair. -/
def isLowUnit (unit : Nat) : Bool := 0xDC00 ≤ unit && unit ≤ 0xDFFF

/-- The character that a surrogate pair stands for. -/
def pairChar (high low : Nat) : Char :=
  Char.ofNat ((high - 0xD800) * 0x400 + (low - 0xDC00) + 0x10000)

/-- The character that a letter after a backslash stands for. -/
def escapeChar? (c : Char) : Option Char :=
  match c with
  | '"' => some '"'
  | '\\' => some '\\'
  | '/' => some '/'
  | 'b' => some '\x08'
  | 'f' => some '\x0c'
  | 'n' => some '\n'
  | 'r' => some '\r'
  | 't' => some '\t'
  | _ => none

/-- The error for a `\u` with fewer than four characters behind it. -/
def shortEscape (size : Char → Nat) (rest : List Char) : ReadError :=
  if rest.foldl (fun total c => total + size c) 0 < 4 then .endInString else .badEscape

/-- The error where the second half of a surrogate pair is due and no four
characters follow a second `\u`. -/
def missingHalf (size : Char → Nat) : List Char → ReadError
  | [] => .endInString
  | '\\' :: [] => .endInString
  | '\\' :: 'u' :: rest => shortEscape size rest
  | _ => .halfEscape

/-- Takes the rest of a string with its closing quote off the front.  `done`
holds the characters before it, last first. -/
def scanString (size : Char → Nat) (done : List Char) :
    List Char → Except ReadError (List Char × List Char)
  | [] => .error .endInString
  | c :: rest =>
      if c = '"' then .ok (done.reverse, rest)
      else if c = '\\' then
        match rest with
        | [] => .error .endInString
        | 'u' :: p :: q :: r :: s :: rest =>
            match unit? p q r s with
            | none => .error .badEscape
            | some unit =>
                if isLowUnit unit then .error .loneSurrogate
                else if isHighUnit unit then
                  match rest with
                  | '\\' :: 'u' :: p :: q :: r :: s :: rest =>
                      match unit? p q r s with
                      | none => .error .badEscape
                      | some second =>
                          if isLowUnit second then
                            scanString size (pairChar unit second :: done) rest
                          else .error .loneSurrogate
                  | rest => .error (missingHalf size rest)
                else scanString size (Char.ofNat unit :: done) rest
        | 'u' :: rest => .error (shortEscape size rest)
        | e :: rest =>
            match escapeChar? e with
            | some c => scanString size (c :: done) rest
            | none => .error .badEscape
      else if c.toNat < 0x20 then .error .controlCharacter
      else scanString size (c :: done) rest

/-! ## What stands in the way -/

/-- A number as a message shows it: an integer if it is spelled as one and fits
64 bits with the sign it has.  Zero with a minus sign is no integer. -/
def foundNumber (n : Numeral) : Found :=
  match n.fraction, n.exponent with
  | none, none =>
      let size := Nat.ofDigitChars 10 n.whole 0
      if n.negative then
        if 0 < size ∧ size ≤ Nat.pow 2 63 then .integer (-size) else .number
      else if size < UInt64.size then .integer size else .number
  | _, _ => .number

/-- The error for a value of the wrong kind at the front of a text.  Scalars are
read to be shown, and one that cannot be read is an error of its own. -/
def typeError (size : Char → Nat) (expected : String) (text : List Char) : ReadError :=
  let shown (found : Except ReadError Found) : ReadError :=
    match found with
    | .ok found => .wrongType found expected
    | .error e => e
  match text with
  | [] => .endInValue
  | c :: rest =>
      if c = 'n' then shown ((scanWord ['u', 'l', 'l'] rest).map fun _ => .null)
      else if c = 't' then shown ((scanWord ['r', 'u', 'e'] rest).map fun _ => .bool true)
      else if c = 'f' then shown ((scanWord ['a', 'l', 's', 'e'] rest).map fun _ => .bool false)
      else if c = '-' ∨ c.isDigit then
        shown ((scanNumeral .endInValue text).map fun (n, _) => foundNumber n)
      else if c = '"' then
        shown ((scanString size [] rest).map fun (s, _) => .string (String.ofList s))
      else if c = '[' then shown (.ok .sequence)
      else if c = '{' then shown (.ok .map)
      else .valueExpected

end SignedFacts.Json
