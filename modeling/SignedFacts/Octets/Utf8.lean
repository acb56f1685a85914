/-!
# UTF-8

Text as octets and back.  A character is written in one to four octets.
Reading refuses at the first octet that no well-formed text could hold there,
and tells the place where the character began and how many octets of it were
still possible.  Input that ends inside a character so far possible is told
apart from a bad octet.
-/

namespace SignedFacts.Utf8

/-! ## Writing -/

/-- The octets of a character. -/
def charOctets (c : Char) : List UInt8 :=
  let code := c.toNat
  if code < 0x80 then
    [UInt8.ofNat code]
  else if code < 0x800 then
    [UInt8.ofNat (0xC0 + code / 64), UInt8.ofNat (0x80 + code % 64)]
  else if code < 0x10000 then
    [UInt8.ofNat (0xE0 + code / 4096), UInt8.ofNat (0x80 + code / 64 % 64),
      UInt8.ofNat (0x80 + code % 64)]
  else
    [UInt8.ofNat (0xF0 + code / 262144), UInt8.ofNat (0x80 + code / 4096 % 64),
      UInt8.ofNat (0x80 + code / 64 % 64), UInt8.ofNat (0x80 + code % 64)]

/-- The octets of a list of characters. -/
def octets (text : List Char) : List UInt8 := text.flatMap charOctets

/-- The octets of a text. -/
def encode (text : String) : List UInt8 := octets text.toList

/-! ## Reading -/

/-- Why octets are not UTF-8. -/
inductive DecodeError where
  /-- The `length` octets from `start` are no character, and with the octet
  after them no beginning of one. -/
  | badSequence (length : Nat) (start : Nat)
  /-- The input ends inside the character that begins at `start`. -/
  | incomplete (start : Nat)
  deriving DecidableEq, Repr

namespace DecodeError

/-- The error in words. -/
def message : DecodeError → String
  | badSequence length start =>
      s!"invalid utf-8 sequence of {length} bytes from index {start}"
  | incomplete start => s!"incomplete utf-8 byte sequence from index {start}"

end DecodeError

/-- What a first octet promises. -/
inductive Lead where
  /-- A character of one octet. -/
  | one
  /-- A character of two octets. -/
  | two
  /-- A character of three octets, with the bounds of its second. -/
  | three (low high : UInt8)
  /-- A character of four octets, with the bounds of its second. -/
  | four (low high : UInt8)
  /-- No character begins so. -/
  | never
  deriving DecidableEq, Repr

/-- What an octet promises as the first of a character.  The bounds of the
second octet leave out longer spellings than needed, surrogates, and numbers
past the last character. -/
def lead (first : UInt8) : Lead :=
  if first < 0x80 then .one
  else if first < 0xC2 then .never
  else if first < 0xE0 then .two
  else if first = 0xE0 then .three 0xA0 0xBF
  else if first = 0xED then .three 0x80 0x9F
  else if first < 0xF0 then .three 0x80 0xBF
  else if first = 0xF0 then .four 0x90 0xBF
  else if first < 0xF4 then .four 0x80 0xBF
  else if first = 0xF4 then .four 0x80 0x8F
  else .never

/-- Whether an octet may follow the first two of a character. -/
def isContinuation (octet : UInt8) : Bool := 0x80 ≤ octet && octet ≤ 0xBF

/-- The six low bits of a following octet. -/
def payload (octet : UInt8) : Nat := octet.toNat % 64

/-- Reads characters to the end of the input.  `start` is the position of the
octets given, and `done` holds the characters before them, last first. -/
def decodeFrom (start : Nat) (done : List Char) :
    List UInt8 → Except DecodeError (List Char)
  | [] => .ok done.reverse
  | a :: rest₁ =>
      match lead a with
      | .never => .error (.badSequence 1 start)
      | .one => decodeFrom (start + 1) (Char.ofNat a.toNat :: done) rest₁
      | .two =>
          match rest₁ with
          | [] => .error (.incomplete start)
          | b :: rest₂ =>
              if isContinuation b then
                decodeFrom (start + 2)
                  (Char.ofNat (a.toNat % 32 * 64 + payload b) :: done) rest₂
              else .error (.badSequence 1 start)
      | .three low high =>
          match rest₁ with
          | [] => .error (.incomplete start)
          | b :: rest₂ =>
              if low ≤ b && b ≤ high then
                match rest₂ with
                | [] => .error (.incomplete start)
                | c :: rest₃ =>
                    if isContinuation c then
                      decodeFrom (start + 3)
                        (Char.ofNat (a.toNat % 16 * 4096 + payload b * 64 + payload c) :: done)
                        rest₃
                    else .error (.badSequence 2 start)
              else .error (.badSequence 1 start)
      | .four low high =>
          match rest₁ with
          | [] => .error (.incomplete start)
          | b :: rest₂ =>
              if low ≤ b && b ≤ high then
                match rest₂ with
                | [] => .error (.incomplete start)
                | c :: rest₃ =>
                    if isContinuation c then
                      match rest₃ with
                      | [] => .error (.incomplete start)
                      | d :: rest₄ =>
                          if isContinuation d then
                            decodeFrom (start + 4)
                              (Char.ofNat (a.toNat % 8 * 262144 + payload b * 4096
                                + payload c * 64 + payload d) :: done)
                              rest₄
                          else .error (.badSequence 3 start)
                    else .error (.badSequence 2 start)
              else .error (.badSequence 1 start)

/-- The characters that octets spell. -/
def decode (octets : List UInt8) : Except DecodeError (List Char) := decodeFrom 0 [] octets

end SignedFacts.Utf8
