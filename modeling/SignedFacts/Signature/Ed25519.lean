import SignedFacts.Hash.Sha512
import SignedFacts.Octets.Hex
import SignedFacts.Signature.Curve

/-!
# Ed25519 signatures

A key pair comes from a seed of 32 octets.  Verification is strict.  The
lengths must be right, the key and the first half of the signature must stand
for points that are not of small order, the second half must be below the order
of the base point, and the first half must be the very octets of the point
computed from the rest.
-/

namespace SignedFacts.Ed25519

open SignedFacts.Octets

/-- The order of the base point. -/
def order : Nat := Nat.pow 2 252 + 27742317777372353535851937790883648493

/-- The hash of octets as a number below the order. -/
def hashScalar (octets : List UInt8) : Nat := littleEndian (Sha512.hash octets) % order

/-- A key pair, known by its seed. -/
structure Keypair where
  /-- The seed. -/
  seed : Vector UInt8 32
  deriving DecidableEq

namespace Keypair

/-- The secret scalar: the lower half of the hashed seed with its lowest three
bits and its topmost bit cleared and the bit below that set. -/
def secret (pair : Keypair) : Nat :=
  let number := littleEndian ((Sha512.hash pair.seed.toList).take 32)
  number % Nat.pow 2 254 / 8 * 8 + Nat.pow 2 254

/-- The upper half of the hashed seed, which hides the nonce. -/
def nonceKey (pair : Keypair) : List UInt8 := (Sha512.hash pair.seed.toList).drop 32

/-- The public key. -/
def publicKey (pair : Keypair) : List UInt8 := (Point.base.times pair.secret).encode

/-- The signature of a message. -/
def sign (pair : Keypair) (message : List UInt8) : List UInt8 :=
  let nonce := hashScalar (pair.nonceKey ++ message)
  let commitment := (Point.base.times nonce).encode
  let challenge := hashScalar (commitment ++ pair.publicKey ++ message)
  commitment ++ toLittleEndian 32 ((nonce + challenge * pair.secret) % order)

end Keypair

/-- Whether a signature of a message holds under a public key. -/
def verify (message signature publicKey : List UInt8) : Bool :=
  if signature.length = 64 ∧ publicKey.length = 32 then
    let commitment := signature.take 32
    let response := littleEndian (signature.drop 32)
    match Point.decode? publicKey, Point.decode? commitment with
    | some key, some point =>
        if response < order ∧ ¬ point.isSmallOrder ∧ ¬ key.isSmallOrder then
          let challenge := hashScalar (commitment ++ publicKey ++ message)
          ((Point.base.times response).add (key.neg.times challenge)).encode = commitment
        else false
    | _, _ => false
  else false

/-! ## Short forms for people -/

/-- A public key by its first sixteen digits. -/
def showPublicKey (publicKey : List UInt8) : String :=
  s!"Ed25519Pub({String.ofList ((Hex.digits publicKey).take 16)})"

/-- A signature by its first sixteen digits. -/
def showSignature (signature : List UInt8) : String :=
  s!"Ed25519Sig({String.ofList ((Hex.digits signature).take 16)}...)"

/-- A key pair by its public key. -/
def showKeypair (pair : Keypair) : String := s!"Keypair({showPublicKey pair.publicKey})"

end SignedFacts.Ed25519
